import BoundSql.Proofs.Builder.Requests

/-!
# Emptying a table

A truncation has a text of its own, drops on its own what waits, and never compiles it. All the same
it is a deletion on a builder on which nothing waits, so a run can do without truncations: it may
install two empty lists and delete instead.

    builder_truncate    :  the same builder is left behind
    afterAll_spelledOut :  also at the end of a run whose truncations are spelled out
    requests_spelledOut :  during which executors are asked the same
-/

namespace BoundSql

variable {m : Type → Type} {ρ : Type}

/-- The step, or the calls that it stands for if it is a truncation. -/
def Step.spelledOut : Step m ρ → List (Step m ρ)
  | .call (.truncate table) => [.call (.filter []), .call (.having []), .call (.delete table none)]
  | s => [s]

namespace Builder

variable {b : Builder}

/-! ### A single truncation -/

/-- The builder with nothing that waits for a clause. -/
def withoutPending (b : Builder) : Builder := (b.filter []).having []

/-- If no predicate waits and no limit is set, nothing follows the table. -/
theorem changeTail_of_nothing_pending (h : b.pendingWhere = []) :
    b.changeTail none = .ok .empty := by
  have hclause : compileClause .rows b.config.autoQuoteValues [] = .ok .empty := rfl
  have hlimit : (KeywordClauses.ofLimit none).clause .limit = "" := rfl
  rw [changeTail, h, hclause, hlimit]
  rfl

/-- A deletion on which nothing waits is written, whatever the builder has accumulated. -/
theorem delete_withoutPending (b : Builder) (table : String) :
    b.withoutPending.delete table none =
      b.withoutPending.commit .delete (.raw "DELETE FROM " ++ .raw table) [] := by
  have htail : b.withoutPending.changeTail none = .ok .empty := changeTail_of_nothing_pending rfl
  rw [delete, htail]
  simp only [Fragment.append_empty]
  rfl

/-- It is what a truncation leaves behind. -/
theorem builder_truncate (b : Builder) (table : String) :
    (b.truncate table).builder = (b.withoutPending.delete table none).builder := by
  rw [delete_withoutPending]
  rfl

/-! ### Runs without truncations -/

theorem afterAll_append (b : Builder) (ss ts : List (Step m ρ)) :
    b.afterAll (ss ++ ts) = (b.afterAll ss).afterAll ts := List.foldl_append

theorem requests_append (b : Builder) (ss ts : List (Step m ρ)) :
    b.requests (ss ++ ts) = b.requests ss ++ (b.afterAll ss).requests ts := by
  induction ss generalizing b with
  | nil => rfl
  | cons s ss ih =>
    show (b.request? s).toList ++ (b.after s).requests (ss ++ ts) = _
    rw [ih, ← List.append_assoc]
    rfl

/-- A step leads to the same builder if it is spelled out … -/
theorem afterAll_spelledOut_step (b : Builder) (s : Step m ρ) :
    b.afterAll s.spelledOut = b.after s := by
  cases s with
  | call c =>
    cases c with
    | truncate table => exact (b.builder_truncate table).symm
    | _ => rfl
  | fetchAll executor | execute executor => rfl

/-- … and its executor is asked the same. -/
theorem requests_spelledOut_step (b : Builder) (s : Step m ρ) :
    b.requests s.spelledOut = (b.request? s).toList := by
  cases s with
  | call c => cases c <;> rfl
  | fetchAll executor | execute executor => exact List.append_nil _

theorem afterAll_spelledOut (b : Builder) (steps : List (Step m ρ)) :
    b.afterAll (steps.flatMap Step.spelledOut) = b.afterAll steps := by
  induction steps generalizing b with
  | nil => rfl
  | cons s ss ih =>
    rw [List.flatMap_cons, afterAll_append, afterAll_spelledOut_step, ih]
    rfl

theorem requests_spelledOut (b : Builder) (steps : List (Step m ρ)) :
    b.requests (steps.flatMap Step.spelledOut) = b.requests steps := by
  induction steps generalizing b with
  | nil => rfl
  | cons s ss ih =>
    rw [List.flatMap_cons, requests_append, requests_spelledOut_step, afterAll_spelledOut_step, ih]
    rfl

end Builder

/-- **A truncation is a deletion with nothing pending.** Whatever waits, is accumulated or is to be
continued, it succeeds and leaves exactly the builder that is left by installing two empty lists and
deleting without a limit. A run with its truncations spelled out in this way asks executors the same
and ends with the same builder. -/
theorem truncation_is_bare_deletion {m : Type → Type} {ρ : Type} (b : Builder) :
    (∀ table : String,
      let cleared := ((b.call (.filter [])).builder.call (.having [])).builder
      let deletion := cleared.call (.delete table none)
      (b.call (.truncate table)).result = .ok () ∧ deletion.result = .ok () ∧
        (b.call (.truncate table)).builder = deletion.builder) ∧
    ∀ steps : List (Step m ρ),
      b.afterAll (steps.flatMap Step.spelledOut) = b.afterAll steps ∧
        b.requests (steps.flatMap Step.spelledOut) = b.requests steps := by
  refine ⟨fun table => ?_, fun steps => ⟨b.afterAll_spelledOut steps, b.requests_spelledOut steps⟩⟩
  intro cleared deletion
  have hdeletion : deletion = b.withoutPending.delete table none := rfl
  refine ⟨rfl, ?_, ?_⟩
  · rw [hdeletion, Builder.delete_withoutPending]
    rfl
  · rw [hdeletion, ← Builder.builder_truncate]
    rfl

/-- Predicates that a deletion refuses, while a view is being created: they are dropped, and the
view is continued. -/
example :
    let b := ((Builder.ofConfig {}).createView "v" false).builder.filter
      [.ofValue "id" (.scalar (.int 1)), (Predicate.isNull "id").withConnector "XOR"]
    (b.delete "t" none).result = .error (.invalidArgument (.connector "XOR")) ∧
      (b.truncate "t").builder.text = "CREATE VIEW v AS DELETE FROM t" := ⟨rfl, by decide⟩

end BoundSql
