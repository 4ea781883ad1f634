import BoundSql.Proofs.Builder.Calls
import BoundSql.Proofs.Builder.Reached
import BoundSql.Proofs.Except
import Mathlib.Control.Traversable.Basic

/-!
# Steps that are refused

A step is *refused* if it fails before anything reaches an executor: a call whose arguments or
pending predicates cannot be compiled, or a hand-over of nothing, or of placeholders to an executor
that numbers its parameters. Every other step proceeds: the call succeeds, or the executor is asked,
and its answer is what the step returns.

A refused step leaves the builder as it is, the pending predicates and the continuation included. A
run without its refused steps is therefore the run with them, less their outcomes:

    steps_marked    : the outcomes of the other steps are the same, one by one
    afterAll_marked : and so is the builder in the end
-/

namespace BoundSql

/-! ### Marked entries -/

/-- The entries of a list at the places that are marked. -/
def marked {α : Type} (marks : List Bool) (as : List α) : List α :=
  ((marks.zip as).filter Prod.fst).map Prod.snd

section

variable {α : Type} (marks : List Bool) (a : α) (as : List α)

@[simp] theorem marked_nil : marked [] as = [] := rfl

@[simp] theorem marked_true_cons : marked (true :: marks) (a :: as) = a :: marked marks as := rfl

@[simp] theorem marked_false_cons : marked (false :: marks) (a :: as) = marked marks as := rfl

end

namespace Builder

variable {m : Type → Type} {ρ α : Type} {b : Builder}

/-! ### Refusal -/

/-- The step does not fail before anything reaches an executor. -/
def accepts (b : Builder) : Step m ρ → Bool
  | .call c => (b.call c).result.isOk
  | .fetchAll executor => (b.statementFor executor.style).isOk
  | .execute executor => (b.statementFor executor.style).isOk

/-- Which steps of a run are accepted. -/
def accepted (b : Builder) : List (Step m ρ) → List Bool
  | [] => []
  | s :: ss => b.accepts s :: (b.after s).accepted ss

/-- The step does what it is meant to do: a call succeeds, or the executor is asked once and the
step returns its answer. -/
inductive Proceeds [Monad m] (b : Builder) : Step m ρ → Prop
  | call {c : Call} : (b.call c).result = .ok () → Proceeds b (.call c)
  | fetchAll {executor : Executor m ρ} (statement : Rendered) (events : List Event) :
      b.fetchAll executor =
        (fun answer => ⟨answer, b.handedOver executor.style, events⟩) <$>
          executor.query statement →
      Proceeds b (.fetchAll executor)
  | execute {executor : Executor m ρ} (statement : Rendered) (events : List Event) :
      b.execute executor =
        (fun answer => ⟨answer, b.handedOver executor.style, events⟩) <$>
          executor.execute statement →
      Proceeds b (.execute executor)

theorem handedOver_of_error {style : PlaceholderStyle} {e : SqlError}
    (h : b.statementFor style = .error e) : b.handedOver style = b := by
  rw [handedOver, h]

/-- A refused step leaves the builder as it is. -/
theorem after_of_refused {s : Step m ρ} (h : b.accepts s = false) : b.after s = b := by
  cases s with
  | call c =>
    obtain ⟨e, herror⟩ := exists_error_of_not_isOk h
    exact builder_call_of_error herror
  | fetchAll executor | execute executor =>
    obtain ⟨e, herror⟩ := exists_error_of_not_isOk h
    exact handedOver_of_error herror

variable [Monad m]

theorem run_of_error {style : PlaceholderStyle} {e : SqlError}
    (h : b.statementFor style = .error e) (send : Rendered → m (Except SqlError α)) :
    b.run style send = pure ⟨.error e, b, []⟩ := by
  rw [run, h]

variable [LawfulMonad m]

theorem run_of_ok {style : PlaceholderStyle} {statement : Rendered}
    (h : b.statementFor style = .ok statement) (send : Rendered → m (Except SqlError α)) :
    ∃ events, b.run style send =
      (fun answer => ⟨answer, b.handedOver style, events⟩) <$> send statement := by
  rw [run, handedOver, h]
  exact ⟨_, bind_pure_comp _ _⟩

/-- A refused step answers with a failure and asks nobody. -/
theorem step_of_refused {s : Step m ρ} (h : b.accepts s = false) :
    ∃ e events, b.step s = pure ⟨.error e, b, events⟩ := by
  cases s with
  | call c =>
    obtain ⟨e, herror⟩ := exists_error_of_not_isOk h
    refine ⟨e, (b.call c).events, ?_⟩
    rw [step, Outcome.map, builder_call_of_error herror, herror]
    rfl
  | fetchAll executor =>
    obtain ⟨e, herror⟩ := exists_error_of_not_isOk h
    refine ⟨e, [], ?_⟩
    rw [step, fetchAll, run_of_error herror, pure_bind]
    rfl
  | execute executor =>
    obtain ⟨e, herror⟩ := exists_error_of_not_isOk h
    refine ⟨e, [], ?_⟩
    rw [step, execute, run_of_error herror, pure_bind]
    rfl

theorem proceeds_of_accepted {s : Step m ρ} (h : b.accepts s = true) : b.Proceeds s := by
  cases s with
  | call c =>
    obtain ⟨_, hok⟩ := exists_ok_of_isOk h
    exact .call hok
  | fetchAll executor =>
    obtain ⟨statement, hok⟩ := exists_ok_of_isOk h
    obtain ⟨events, hrun⟩ := run_of_ok hok executor.query
    exact .fetchAll statement events hrun
  | execute executor =>
    obtain ⟨statement, hok⟩ := exists_ok_of_isOk h
    obtain ⟨events, hrun⟩ := run_of_ok hok executor.execute
    exact .execute statement events hrun

/-! ### Runs without their refused steps -/

omit [Monad m] [LawfulMonad m] in
theorem afterAll_marked (b : Builder) (steps : List (Step m ρ)) :
    b.afterAll (marked (b.accepted steps) steps) = b.afterAll steps := by
  induction steps generalizing b with
  | nil => rfl
  | cons s ss ih =>
    rw [accepted]
    cases h : b.accepts s with
    | false =>
      have hsame := after_of_refused h
      show b.afterAll (marked ((b.after s).accepted ss) ss) = (b.after s).afterAll ss
      rw [hsame]
      exact ih b
    | true => exact ih (b.after s)

/-- A run without its refused steps is the run with them, less their outcomes. -/
theorem steps_marked (b : Builder) (steps : List (Step m ρ)) :
    b.steps (marked (b.accepted steps) steps) = marked (b.accepted steps) <$> b.steps steps := by
  induction steps generalizing b with
  | nil => simp [Builder.steps, accepted]
  | cons s ss ih =>
    rw [accepted]
    cases h : b.accepts s with
    | false =>
      obtain ⟨e, events, hstep⟩ := step_of_refused h
      simp [Builder.steps, hstep, after_of_refused h, ih]
    | true =>
      simp only [marked_true_cons, Builder.steps, map_bind, map_pure]
      -- both runs go on from the builder after the step, where the rest is known
      rw [step_bind_builder b s fun o c => do
          let outcomes ← c.steps (marked ((b.after s).accepted ss) ss)
          pure (o :: outcomes),
        step_bind_builder b s fun o c => do
          let outcomes ← c.steps ss
          pure (o :: marked ((b.after s).accepted ss) outcomes)]
      simp only [ih, bind_map_left]

end Builder

/-- **Failed calls change nothing.** A step either is refused, and then it answers with an error,
asks no executor and leaves the builder exactly as it was, or it proceeds: the call succeeds or its
executor is asked. If all refused steps of a run are left out, the outcomes of the others are the
same, whatever executors answer, and so is the builder in the end. -/
theorem refused_steps_change_nothing {m : Type → Type} {ρ : Type} [Monad m] [LawfulMonad m]
    (b : Builder) (steps : List (Step m ρ)) :
    (∀ s : Step m ρ,
        (b.accepts s = false ∧ b.after s = b ∧
            ∃ e events, b.step s = pure ⟨.error e, b, events⟩) ∨
          (b.accepts s = true ∧ b.Proceeds s)) ∧
      b.steps (marked (b.accepted steps) steps) = marked (b.accepted steps) <$> b.steps steps ∧
      b.afterAll (marked (b.accepted steps) steps) = b.afterAll steps := by
  refine ⟨fun s => ?_, b.steps_marked steps, b.afterAll_marked steps⟩
  cases h : b.accepts s with
  | false => exact .inl ⟨rfl, Builder.after_of_refused h, Builder.step_of_refused h⟩
  | true => exact .inr ⟨rfl, Builder.proceeds_of_accepted h⟩

/-- A database that numbers its parameters and answers every query with no rows. -/
def numberedDatabase : Executor Id Unit where
  style := .numbered
  query _ := .ok []
  execute _ := .ok 0

/-- A union that is continued only after four failures: predicates with an unknown connector, a kind
of object that is none, an unknown word for a union, and a placeholder of the caller that cannot be
numbered. -/
def delayedUnion : List (Step Id Unit) :=
  [.call (.filter [.ofValue "id" .placeholder]),
    .call (.select false [.plain "users"] [] {}),
    .call (.union (.flag (some true))),
    .call (.filter [.ofValue "id" (.scalar (.int 1)),
      (Predicate.ofValue "id" (.scalar (.int 2))).withConnector "XOR"]),
    .call (.select false [.plain "roles"] [] {}),
    .call (.drop "roles" "tree"),
    .call (.union (.word "some")),
    .fetchAll numberedDatabase,
    .call (.filter []),
    .call (.select false [.plain "roles"] [] {})]

/-- The union is still continued. -/
theorem refused_steps_change_nothing_of_delayed_union :
    (Builder.ofConfig {}).accepted delayedUnion =
        [true, true, true, true, false, false, false, false, true, true] ∧
      (Builder.ofConfig {}).steps
          (marked ((Builder.ofConfig {}).accepted delayedUnion) delayedUnion) =
        marked ((Builder.ofConfig {}).accepted delayedUnion) <$>
          (Builder.ofConfig {}).steps delayedUnion ∧
      ((Builder.ofConfig {}).afterAll
          (marked ((Builder.ofConfig {}).accepted delayedUnion) delayedUnion)) =
        (Builder.ofConfig {}).afterAll delayedUnion ∧
      ((Builder.ofConfig {}).afterAll delayedUnion).text =
        "SELECT * FROM users WHERE id = ? UNION ALL SELECT * FROM roles" := by
  obtain ⟨-, houtcomes, hstate⟩ :=
    refused_steps_change_nothing (Builder.ofConfig {}) delayedUnion
  exact ⟨by decide, houtcomes, hstate, by decide⟩

end BoundSql
