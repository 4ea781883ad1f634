import BoundSql.Fragment.Lemmas

/-!
# Slots of a fragment

A *slot* is a place of a fragment at which the database is given a value: a bound scalar, or a
placeholder whose value is supplied outside the compiler. Raw text has no slot, so the slots of what
is put together are those of its pieces, whatever is written around them.
-/

namespace BoundSql

/-- A place for a value. -/
inductive Slot where
  | bound (value : Scalar)
  /-- A `?` written by the caller. -/
  | supplied
  deriving DecidableEq

def Slot.bound? : Slot → Option Scalar
  | .bound value => some value
  | .supplied => none

def Part.slot? : Part → Option Slot
  | .raw _ => none
  | .bind value => some (.bound value)
  | .placeholder => some .supplied

namespace Fragment

/-- The slots of a fragment, from left to right. -/
def slots (a : Fragment) : List Slot := a.parts.filterMap Part.slot?

/-! ### Slots of what is constructed -/

@[simp] theorem slots_empty : empty.slots = [] := rfl

@[simp] theorem slots_raw (text : String) : (raw text).slots = [] := by
  unfold raw
  split <;> rfl

@[simp] theorem slots_bind (value : Scalar) : (bind value).slots = [.bound value] := rfl

@[simp] theorem slots_placeholder : placeholder.slots = [.supplied] := rfl

@[simp] theorem slots_append (a b : Fragment) : (a ++ b).slots = a.slots ++ b.slots := by
  obtain ⟨ps⟩ := a
  obtain ⟨qs⟩ := b
  simp only [slots, parts_append]
  fun_induction glue ps qs with
  | case1 qs => rfl
  | case2 s t qs => rfl
  | case3 p ps qs hp ih => cases p <;> simp [Part.slot?, List.filterMap_cons, ih]

@[simp] theorem slots_parenthesized (a : Fragment) : a.parenthesized.slots = a.slots := by
  simp [parenthesized]

@[simp] theorem slots_join (separator : String) (as : List Fragment) :
    (join separator as).slots = as.flatMap slots := by
  fun_induction join separator as with
  | case1 => rfl
  | case2 a => simp
  | case3 a b as ih => simp [ih]

/-! ### Views of a fragment, read off its slots -/

theorem binds_eq_filterMap_slots (a : Fragment) : a.binds = a.slots.filterMap Slot.bound? := by
  rw [slots, List.filterMap_filterMap, binds]
  congr 1
  funext p
  cases p <;> rfl

theorem placeholderCount_eq_count_slots (a : Fragment) :
    a.placeholderCount = a.slots.count .supplied := by
  obtain ⟨ps⟩ := a
  simp only [placeholderCount, slots]
  induction ps with
  | nil => rfl
  | cons p ps ih => cases p <;> simp [Part.slot?, List.filterMap_cons, ih]

end Fragment

end BoundSql
