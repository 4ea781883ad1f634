import BoundSql.Proofs.Builder.Calls

/-!
# Effects of statements

A statement is compiled from the quoting and the pending predicates of its builder. Builders that
agree in these see the same *effect* of it (`exists_effect`): it fails in the same way, or it is
written in the same way, whatever the builders have accumulated, however they render it, and
whatever they have handed over.
-/

namespace BoundSql

/-- The call writes a statement, or the beginning of a view. -/
def Call.isStatement : Call → Bool
  | .createView _ _ => true
  | c => c.type?.isSome

/-- What a statement does. -/
inductive Effect where
  | fail (e : SqlError) (events : List Event)
  /-- The statement is written. `rows` and `groups` are the predicates that still wait after it, and
  `opens` is what the next statement continues. -/
  | write (type : StatementType) (statement : Fragment) (events : List Event)
      (rows groups : List Predicate) (opens : Option Continuation)

/-- The effect on a builder. -/
def Effect.on (b : Builder) : Effect → Outcome Unit
  | fail e events => ⟨.error e, b, events⟩
  | write type statement events rows groups opens =>
    let written :=
      { b with pendingWhere := rows, pendingHaving := groups }.commit type statement events
    { written with builder := { written.builder with continuation := opens } }

namespace Builder

variable {b : Builder}

/-- The builders agree in what statements are compiled from. -/
structure Agrees (b other : Builder) : Prop where
  quoting : b.config.autoQuoteValues = other.config.autoQuoteValues
  rows : b.pendingWhere = other.pendingWhere
  groups : b.pendingHaving = other.pendingHaving

theorem Agrees.selectTail {other : Builder} (h : b.Agrees other) (keywords : KeywordClauses) :
    other.selectTail keywords = b.selectTail keywords := by
  rw [Builder.selectTail, Builder.selectTail, h.quoting, h.rows, h.groups]

theorem Agrees.changeTail {other : Builder} (h : b.Agrees other) (limit : Option Nat) :
    other.changeTail limit = b.changeTail limit := by
  rw [Builder.changeTail, Builder.changeTail, h.quoting, h.rows]

/-- A statement has the same effect on all builders that agree. -/
theorem exists_effect (b : Builder) {c : Call} (hc : c.isStatement = true) :
    ∃ effect : Effect, ∀ other, b.Agrees other → other.call c = effect.on other := by
  cases c with
  | select distinct tables columns keywords =>
    cases htail : b.selectTail keywords with
    | error e =>
      refine ⟨.fail e (compileTables tables).events, fun other h => ?_⟩
      rw [call, select, h.selectTail, htail]
      rfl
    | ok tail =>
      exact ⟨.write .select _ (compileTables tables).events [] [] none, fun other h => by
        rw [call, select, h.selectTail, htail]
        rfl⟩
  | update tables assignments limit =>
    cases htail : b.changeTail limit with
    | error e =>
      refine ⟨.fail e (compileTables tables).events, fun other h => ?_⟩
      rw [call, update, h.changeTail, htail]
      rfl
    | ok tail =>
      exact ⟨.write .update _ (compileTables tables).events [] b.pendingHaving none, fun other h => by
        rw [call, update, h.changeTail, htail, ← h.quoting, h.groups]
        rfl⟩
  | delete table limit =>
    cases htail : b.changeTail limit with
    | error e =>
      refine ⟨.fail e [], fun other h => ?_⟩
      rw [call, delete, h.changeTail, htail]
      rfl
    | ok tail =>
      exact ⟨.write .delete _ [] [] b.pendingHaving none, fun other h => by
        rw [call, delete, h.changeTail, htail, h.groups]
        rfl⟩
  | drop name kind =>
    cases hkind : DropKind.parse kind with
    | error e =>
      refine ⟨.fail e [], fun other h => ?_⟩
      rw [call, drop, hkind]
      rfl
    | ok kind =>
      exact ⟨.write .raw _ [] b.pendingWhere b.pendingHaving none, fun other h => by
        rw [call, drop, hkind, h.rows, h.groups]
        rfl⟩
  | insert ignore table values columns =>
    exact ⟨.write .insert _ [] b.pendingWhere b.pendingHaving none, fun other h => by
      rw [call, insert, ← h.quoting, h.rows, h.groups]
      rfl⟩
  | truncate table =>
    exact ⟨.write .delete _ _ [] [] none, fun other h => by
      rw [call, truncate, ← h.rows, ← h.groups]
      rfl⟩
  | createView name replace =>
    exact ⟨.write .raw _ [] b.pendingWhere b.pendingHaving (some .createView), fun other h => by
      rw [call, createView, h.rows, h.groups]
      rfl⟩
  | autoQuoteValues _ | filter _ | having _ | appendRaw _ | append _ | union _ | reset => cases hc

end Builder

end BoundSql
