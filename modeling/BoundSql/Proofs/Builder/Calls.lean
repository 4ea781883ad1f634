import BoundSql.Builder.History

/-!
# What calls do to a builder

A call that writes a statement either fails, and then the builder stays as it is, or it writes the
statement that it would write on a new builder with the same options and pending predicates
(`settles_call`). No other call fails, except for a union of an unknown mode, which has no effect
either (`builder_call_of_error`).
-/

namespace BoundSql

/-- The type of the statement that a call writes. -/
def Call.type? : Call → Option StatementType
  | .select _ _ _ _ => some .select
  | .insert _ _ _ _ => some .insert
  | .update _ _ _ => some .update
  | .delete _ _ | .truncate _ => some .delete
  | .drop _ _ => some .raw
  | .autoQuoteValues _ | .filter _ | .having _ | .appendRaw _ | .append _ | .createView _ _
  | .union _ | .reset => none

namespace Builder

variable {b : Builder}

/-- A new builder with the same options and pending predicates. -/
def fresh (b : Builder) : Builder :=
  { config := b.config, pendingWhere := b.pendingWhere, pendingHaving := b.pendingHaving }

/-- What a call writes on a new builder. -/
def own (b : Builder) (c : Call) : Fragment := (b.fresh.call c).builder.sql

/-- A builder that has just written a statement. -/
structure Wrote (b : Builder) (type : StatementType) (statement : Fragment) (c : Builder) :
    Prop where
  sql : c.sql = if b.isContinuing then b.sql ++ statement else statement
  continuation : c.continuation = none
  type : c.statementType = some type

/-- An outcome that is either a failure without any effect or a written statement. -/
def Settles (b : Builder) (type : StatementType) (statement : Fragment) (o : Outcome Unit) : Prop :=
  (∃ e, o.result = .error e ∧ o.builder = b) ∨
    (o.result = .ok () ∧ b.Wrote type statement o.builder)

theorem settles_select (distinct : Bool) (tables : Tables) (columns : Columns)
    (keywords : KeywordClauses) :
    b.Settles .select (b.fresh.select distinct tables columns keywords).builder.sql
      (b.select distinct tables columns keywords) := by
  -- the clauses are compiled from what the new builder shares with this one
  have hfresh : b.fresh.selectTail keywords = b.selectTail keywords := rfl
  unfold select
  rw [hfresh]
  cases b.selectTail keywords with
  | error e => exact .inl ⟨e, rfl, rfl⟩
  | ok tail => exact .inr ⟨rfl, rfl, rfl, rfl⟩

theorem settles_update (tables : Tables) (assignments : SetClause) (limit : Option Nat) :
    b.Settles .update (b.fresh.update tables assignments limit).builder.sql
      (b.update tables assignments limit) := by
  have hfresh : b.fresh.changeTail limit = b.changeTail limit := rfl
  unfold update
  rw [hfresh]
  cases b.changeTail limit with
  | error e => exact .inl ⟨e, rfl, rfl⟩
  | ok tail => exact .inr ⟨rfl, rfl, rfl, rfl⟩

theorem settles_delete (table : String) (limit : Option Nat) :
    b.Settles .delete (b.fresh.delete table limit).builder.sql (b.delete table limit) := by
  have hfresh : b.fresh.changeTail limit = b.changeTail limit := rfl
  unfold delete
  rw [hfresh]
  cases b.changeTail limit with
  | error e => exact .inl ⟨e, rfl, rfl⟩
  | ok tail => exact .inr ⟨rfl, rfl, rfl, rfl⟩

theorem settles_drop (name kind : String) :
    b.Settles .raw (b.fresh.drop name kind).builder.sql (b.drop name kind) := by
  unfold drop
  cases DropKind.parse kind with
  | error e => exact .inl ⟨e, rfl, rfl⟩
  | ok kind => exact .inr ⟨rfl, rfl, rfl, rfl⟩

/-- A statement fails without any effect, or writes what it would write on a new builder. -/
theorem settles_call {call : Call} {type : StatementType} (htype : call.type? = some type) :
    b.Settles type (b.own call) (b.call call) := by
  cases call with
  | select _ _ _ _ =>
    cases htype
    exact settles_select _ _ _ _
  | update _ _ _ =>
    cases htype
    exact settles_update _ _ _
  | delete _ _ =>
    cases htype
    exact settles_delete _ _
  | drop name kind =>
    cases htype
    -- unfolded by hand: the kinds are words, which are slow to compare
    have hcall : ∀ d : Builder, d.call (.drop name kind) = d.drop name kind := fun d => by
      rw [Builder.call]
    rw [own, hcall, hcall]
    exact settles_drop name kind
  | insert _ _ _ _ | truncate _ =>
    cases htype
    exact .inr ⟨rfl, rfl, rfl, rfl⟩
  | autoQuoteValues _ | filter _ | having _ | appendRaw _ | append _ | createView _ _ | union _
  | reset => cases htype

/-- A call that fails leaves the builder as it is. -/
theorem builder_call_of_error {call : Call} {e : SqlError} (h : (b.call call).result = .error e) :
    (b.call call).builder = b := by
  cases htype : call.type? with
  | some type =>
    rcases settles_call htype with ⟨_, -, hbuilder⟩ | ⟨hok, -⟩
    · exact hbuilder
    · rw [hok] at h
      cases h
  | none =>
    cases call with
    | union choice =>
      rw [Builder.call, Builder.union] at h ⊢
      cases hmode : choice.resolve with
      | error e => rfl
      | ok mode =>
        rw [hmode] at h
        cases h
    | autoQuoteValues _ | filter _ | having _ | appendRaw _ | append _ | createView _ _ | reset =>
      cases h
    | select _ _ _ _ | insert _ _ _ _ | update _ _ _ | delete _ _ | truncate _ | drop _ _ =>
      cases htype

theorem wrote_of_ok {call : Call} {type : StatementType} (htype : call.type? = some type)
    (hok : (b.call call).result = .ok ()) :
    b.Wrote type (b.own call) (b.call call).builder := by
  rcases settles_call htype with ⟨e, herror, -⟩ | ⟨-, hwrote⟩
  · rw [herror] at hok
    cases hok
  · exact hwrote

end Builder

end BoundSql
