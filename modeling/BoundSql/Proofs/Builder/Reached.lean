import BoundSql.Proofs.Builder.Supplied

/-!
# Reachable builders

What a builder is after a step does not depend on what an executor answers, nor on the monad in
which it answers: `after` is the builder that every outcome of the step carries. A builder is
*reached* if calls of an admitted kind and hand-overs lead to it from a new builder, where every
statement that a call embeds is in turn the statement of a builder that was reached in this way.
-/

namespace BoundSql

namespace Builder

variable {m : Type → Type} {ρ α β : Type}

/-- The builder after its statement was offered to an executor of the style. -/
def handedOver (style : PlaceholderStyle) (b : Builder) : Builder :=
  match b.statementFor style with
  | .error _ => b
  | .ok statement => { b with lastSql := some statement.sql }.reset

/-- The builder after a step. -/
def after (b : Builder) : Step m ρ → Builder
  | .call c => (b.call c).builder
  | .fetchAll executor => b.handedOver executor.style
  | .execute executor => b.handedOver executor.style

/-- The builder after several steps. -/
def afterAll (b : Builder) (steps : List (Step m ρ)) : Builder := steps.foldl after b

variable [Monad m] [LawfulMonad m]

/-- Whatever an executor answers, what follows goes on from the same builder. -/
theorem run_bind_builder (style : PlaceholderStyle) (send : Rendered → m (Except SqlError α))
    (b : Builder) (next : Outcome α → Builder → m β) :
    (b.run style send >>= fun outcome => next outcome outcome.builder) =
      b.run style send >>= fun outcome => next outcome (b.handedOver style) := by
  unfold run handedOver
  cases b.statementFor style <;> simp

/-- What follows a step goes on from the builder after the step. -/
theorem step_bind_builder (b : Builder) (s : Step m ρ)
    (next : Outcome (Reply ρ) → Builder → m β) :
    (b.step s >>= fun outcome => next outcome outcome.builder) =
      b.step s >>= fun outcome => next outcome (b.after s) := by
  cases s with
  | call c => simp [step, after, Outcome.map]
  | fetchAll executor =>
    simpa [step, after, Outcome.map, fetchAll] using
      run_bind_builder executor.style executor.query b fun o => next (o.map .rows)
  | execute executor =>
    simpa [step, after, Outcome.map, execute] using
      run_bind_builder executor.style executor.execute b fun o => next (o.map .affected)

/-- The outcomes of a run carry the builder after the first step, after the first two steps, and so
on, whatever executors answer. -/
theorem builders_steps (b : Builder) (steps : List (Step m ρ)) :
    List.map Outcome.builder <$> b.steps steps =
      (fun _ => (List.range steps.length).map fun i => b.afterAll (steps.take (i + 1))) <$>
        b.steps steps := by
  induction steps generalizing b with
  | nil => simp [Builder.steps]
  | cons s ss ih =>
    have hrange : (List.range (s :: ss).length).map (fun i => b.afterAll ((s :: ss).take (i + 1))) =
        b.after s :: (List.range ss.length).map fun i => (b.after s).afterAll (ss.take (i + 1)) := by
      rw [List.length_cons, List.range_succ_eq_map, List.map_cons, List.map_map]
      rfl
    have hrest := congrArg (fun x => List.cons (b.after s) <$> x) (ih (b.after s))
    simp only [Functor.map_map] at hrest
    rw [hrange]
    simp only [Builder.steps, map_bind, map_pure, List.map_cons]
    -- both sides depend on the first outcome through its builder alone
    rw [step_bind_builder b s fun _ c => do
        let outcomes ← c.steps ss
        pure (c :: outcomes.map Outcome.builder),
      step_bind_builder b s fun _ c => do
        let _ ← c.steps ss
        pure (b.after s ::
          (List.range ss.length).map fun i => (b.after s).afterAll (ss.take (i + 1)))]
    simp only [bind_pure_comp, hrest]

end Builder

mutual

/-- The builders that a run of admitted calls leads to from a builder with admitted options. -/
inductive Reached (starts : Config → Prop) (admits : Call → Prop) : Builder → Prop
  | new {config : Config} : starts config → Reached starts admits (.ofConfig config)
  | call {b : Builder} {c : Call} : Reached starts admits b → admits c →
      (∀ f ∈ c.statements, ReachedStatement starts admits f) →
      Reached starts admits (b.call c).builder
  | handedOver {b : Builder} (style : PlaceholderStyle) : Reached starts admits b →
      Reached starts admits (b.handedOver style)

/-- The statements of such builders. -/
inductive ReachedStatement (starts : Config → Prop) (admits : Call → Prop) : Fragment → Prop
  | of {b : Builder} : Reached starts admits b → ReachedStatement starts admits b.sql

end

/-- What new builders satisfy, and what calls keep as long as it holds of all embedded statements,
holds of every builder that is reached. -/
theorem Reached.invariant {starts : Config → Prop} {admits : Call → Prop}
    {inv : Builder → Prop} {invSql : Fragment → Prop}
    (sql : ∀ b, inv b → invSql b.sql)
    (new : ∀ config, starts config → inv (.ofConfig config))
    (call : ∀ b c, inv b → admits c → (∀ f ∈ c.statements, invSql f) → inv (b.call c).builder)
    (handedOver : ∀ b style, inv b → inv (b.handedOver style))
    {b : Builder} (h : Reached starts admits b) : inv b := by
  refine @Reached.rec starts admits (fun b _ => inv b) (fun f _ => invSql f) ?_ ?_ ?_ ?_ b h
  · intro config hc
    exact new config hc
  · intro b c _ hc _ hb hf
    exact call b c hb hc hf
  · intro b style _ hb
    exact handedOver b style hb
  · intro b _ hb
    exact sql b hb

end BoundSql
