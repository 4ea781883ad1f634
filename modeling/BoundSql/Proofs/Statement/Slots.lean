import BoundSql.Proofs.Builder.Supplied
import BoundSql.Proofs.Except
import BoundSql.Proofs.Fragment.Slots

/-!
# The slots of the parts of a statement

Each part of a statement has the slots of the values that it mentions, in their order. A value has
one slot for each of its leaves, however its lists are nested, and the slots of a statement that is
embedded in it. With quoting off, a scalar is plain text and has none.

    slots_joined       :  (v.joined quote).slots = v.slots quote
    slots_compileClause :  a clause has the slots of the values of its predicates
-/

namespace BoundSql

open Fragment (raw)

/-! ### Values -/

/-- The slots of a scalar that is quoted: the text `?` stands for a placeholder. -/
def Scalar.slots (quote : Bool) (s : Scalar) : List Slot :=
  if quote then [if s = .text "?" then .supplied else .bound s] else []

theorem Scalar.slots_quoted (quote : Bool) (s : Scalar) :
    (s.quoted quote).slots = s.slots quote := by
  unfold quoted slots
  split
  · split <;> rfl
  · exact Fragment.slots_raw s.plain

namespace Value

mutual

/-- The slots of a value, leaf by leaf. -/
def slots (quote : Bool) : Value → List Slot
  | .scalar s => s.slots quote
  | .placeholder => [.supplied]
  | .list items => listSlots quote items
  | .statement sub => sub.slots

def listSlots (quote : Bool) : List Value → List Slot
  | [] => []
  | v :: vs => slots quote v ++ listSlots quote vs

end

variable (quote : Bool)

mutual

theorem slots_joined : ∀ v : Value, (v.joined quote).slots = v.slots quote
  | .scalar s => s.slots_quoted quote
  | .placeholder => rfl
  | .list items => by
    rw [joined, Fragment.slots_join, slots_joinedItems items, slots]
  | .statement sub => by
    rw [joined, Fragment.slots_parenthesized, slots]

theorem slots_joinedItems :
    ∀ vs : List Value, (joinedItems quote vs).flatMap Fragment.slots = listSlots quote vs
  | [] => rfl
  | v :: vs => by
    rw [joinedItems, List.flatMap_cons, slots_joined v, slots_joinedItems vs, listSlots]

end

theorem slots_quotedItems (v : Value) :
    (v.quotedItems quote).flatMap Fragment.slots = v.slots quote := by
  cases v with
  | list items => exact slots_joinedItems quote items
  | scalar s => simp [quotedItems, slots_joined]
  | placeholder => simp [quotedItems, slots_joined]
  | statement sub => simp [quotedItems, slots_joined]

/-! With quoting off, only embedded statements bind scalars. -/

mutual

theorem bound_slots_unquoted :
    ∀ v : Value, (v.slots false).filterMap Slot.bound? = v.statements.flatMap Fragment.binds
  | .scalar _ | .placeholder => rfl
  | .list items => by
    rw [slots, statements, bound_listSlots_unquoted items]
  | .statement sub => by
    rw [slots, statements, List.flatMap_singleton, Fragment.binds_eq_filterMap_slots]

theorem bound_listSlots_unquoted : ∀ vs : List Value,
    (listSlots false vs).filterMap Slot.bound? = (listStatements vs).flatMap Fragment.binds
  | [] => rfl
  | v :: vs => by
    rw [listSlots, listStatements, List.filterMap_append, List.flatMap_append,
      bound_slots_unquoted v, bound_listSlots_unquoted vs]

end

end Value

/-! ### Predicates and clauses -/

namespace Predicate

/-- The value that a predicate mentions. A test for `NULL` mentions none, whatever it has. -/
def values (p : Predicate) : List Value :=
  match p.operator with
  | .isNull | .isNotNull => []
  | _ => [p.value]

/-- The slots of the values that a predicate mentions. -/
def slots (quote : Bool) (p : Predicate) : List Slot := p.values.flatMap (Value.slots quote)

variable {quote : Bool} {p : Predicate} {a : Fragment}

/-- What stands before the value is raw text. -/
theorem slots_comparison_append (p : Predicate) (a : Fragment) :
    (p.comparison ++ a).slots = a.slots := by
  simp [comparison]

theorem slots_compileRange (h : p.compileRange quote = .ok a) : a.slots = p.value.slots quote := by
  unfold compileRange at h
  split at h
  · cases h
    rw [slots_comparison_append, Fragment.slots_join, Value.slots_quotedItems]
  · cases h

/-- Membership in the empty list is decided without a value. -/
theorem slots_compileMembership (quote : Bool) (always : String) (p : Predicate) :
    (p.compileMembership quote always).slots = p.value.slots quote := by
  unfold compileMembership
  split
  · next hvalue =>
    rw [hvalue, Fragment.slots_raw]
    rfl
  · next sub hvalue =>
    rw [hvalue, slots_comparison_append, Fragment.slots_parenthesized, Value.slots]
  · rw [slots_comparison_append, Fragment.slots_parenthesized, Value.slots_joined]

theorem slots_compileComparison (h : p.compileComparison quote = .ok a) :
    a.slots = p.value.slots quote := by
  unfold compileComparison at h
  split at h
  · cases h
  · cases h
    rw [slots_comparison_append, Value.slots_joined]

theorem slots_compile (h : p.compile quote = .ok a) : a.slots = p.slots quote := by
  have hone : [p.value].flatMap (Value.slots quote) = p.value.slots quote :=
    List.flatMap_singleton _ _
  unfold slots values
  cases hop : p.operator with
  | between | notBetween =>
    rw [compile, hop] at h
    rw [hone]
    exact slots_compileRange h
  | inList | notInList =>
    rw [compile, hop] at h
    cases h
    rw [hone]
    exact slots_compileMembership quote _ p
  | isNull | isNotNull =>
    rw [compile, hop] at h
    cases h
    simp
  | eq | ne | lt | gt | lte | gte | like | notLike | other _ =>
    rw [compile, hop] at h
    rw [hone]
    exact slots_compileComparison h

/-- The connector adds no slot. -/
theorem slots_compileNext (h : p.compileNext quote = .ok a) : a.slots = p.slots quote := by
  obtain ⟨connector, -, h⟩ := exists_of_bind_eq_ok h
  obtain ⟨body, hbody, h⟩ := exists_of_bind_eq_ok h
  cases h
  rw [← slots_compile hbody]
  simp

end Predicate

theorem slots_compileClause {keyword : ClauseKeyword} {quote : Bool} {ps : List Predicate}
    {a : Fragment} (h : compileClause keyword quote ps = .ok a) :
    a.slots = ps.flatMap (Predicate.slots quote) := by
  cases ps with
  | nil =>
    cases h
    rfl
  | cons p ps =>
    obtain ⟨first, hfirst, h⟩ := exists_of_bind_eq_ok h
    obtain ⟨later, hlater, h⟩ := exists_of_bind_eq_ok h
    cases h
    have hps : later.flatMap Fragment.slots = ps.flatMap (Predicate.slots quote) :=
      flatMap_eq_of_mapM_eq_ok (fun q a hq => Predicate.slots_compileNext hq) hlater
    rw [List.flatMap_cons, ← Predicate.slots_compile hfirst, ← hps]
    simp

/-! ### Tables -/

namespace TableRef

/-- The values that a table entry mentions. -/
def values (t : TableRef) : List Value := t.statements.map .statement

/-- A join has the slots of its base, whether it takes effect or not. -/
theorem slots_compile (quote : Bool) :
    ∀ t : TableRef, t.compile.value.slots = t.values.flatMap (Value.slots quote)
  | .plain name => Fragment.slots_raw name
  | .aliased name label => by
    rw [compile, Traced.silent]
    simp [values, statements]
  | .statement sub none => by
    rw [compile, Traced.silent]
    simp [values, statements, Value.slots]
  | .statement sub (some label) => by
    rw [compile, Traced.silent]
    simp [values, statements, Value.slots]
  | .joined base joinType on => by
    have hbase : base.compile.value.slots = base.values.flatMap (Value.slots quote) :=
      slots_compile quote base
    show _ = base.values.flatMap (Value.slots quote)
    rw [← hbase, compile]
    split
    · simp [Traced.map]
    · rfl

end TableRef

theorem slots_compileFollowing (quote : Bool) : ∀ ts : Tables,
    (compileFollowing ts).value.slots = (ts.flatMap TableRef.values).flatMap (Value.slots quote)
  | [] => rfl
  | t :: ts => by
    rw [List.flatMap_cons, List.flatMap_append, ← t.slots_compile quote,
      ← slots_compileFollowing quote ts]
    simp [compileFollowing]

theorem slots_compileTables (quote : Bool) (ts : Tables) :
    (compileTables ts).value.slots = (ts.flatMap TableRef.values).flatMap (Value.slots quote) := by
  cases ts with
  | nil => rfl
  | cons t ts =>
    rw [List.flatMap_cons, List.flatMap_append, ← t.slots_compile quote,
      ← slots_compileFollowing quote ts]
    simp [compileTables]

/-! ### Assignments -/

namespace SetClause

/-- The values that assignments mention. -/
def values : SetClause → List Value
  | .pairs assignments => assignments.map Prod.snd
  | .raw _ => []

theorem slots_compile (quote : Bool) (s : SetClause) :
    (s.compile quote).slots = s.values.flatMap (Value.slots quote) := by
  cases s with
  | raw text => exact Fragment.slots_raw _
  | pairs assignments =>
    rw [compile, Fragment.slots_join, values, List.flatMap_map, List.flatMap_map]
    congr 1
    funext assignment
    obtain ⟨column, value⟩ := assignment
    simp [Value.slots_joined]

end SetClause

end BoundSql
