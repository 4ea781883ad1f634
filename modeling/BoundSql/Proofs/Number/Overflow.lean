import Mathlib.Algebra.Order.Ring.Nat
import Mathlib.Tactic.NormNum.Basic

/-!
# Arithmetic that notices its overflow

Numbers of a fixed width are words of `w` bits, read as unsigned numbers or in two's complement. An
operation on them wraps around when its exact result does not fit. Here such an operation has no
result, so that a result, where there is one, is exact:

    addSigned?_eq_some_iff : addSigned? x y = some z ↔ z.toInt = x.toInt + y.toInt

and likewise for the other operations.
-/

namespace BoundSql.Number

variable {w : Nat} {x y z : BitVec w}

/-- The wrapped result of an operation, if it has not overflowed. -/
def unlessOverflow (overflow : Bool) (wrapped : BitVec w) : Option (BitVec w) :=
  if overflow then none else some wrapped

def addSigned? (x y : BitVec w) : Option (BitVec w) := unlessOverflow (x.saddOverflow y) (x + y)

def subSigned? (x y : BitVec w) : Option (BitVec w) := unlessOverflow (x.ssubOverflow y) (x - y)

def mulSigned? (x y : BitVec w) : Option (BitVec w) := unlessOverflow (x.smulOverflow y) (x * y)

def subUnsigned? (x y : BitVec w) : Option (BitVec w) := unlessOverflow (x.usubOverflow y) (x - y)

/-- A natural number as a signed number of `w` bits. -/
def signedOfNat? (w n : Nat) : Option (BitVec w) :=
  unlessOverflow (decide (2 ^ (w - 1) ≤ n)) (BitVec.ofNat w n)

/-! ### Results are exact -/

/-- No word stands for a number out of range. So it is enough that an overflow means such a number,
and that the wrapped result is exact without one. -/
theorem unlessOverflow_eq_some_iff {overflow : Bool} {wrapped : BitVec w} {n : Int}
    (hout : overflow = true → n < -2 ^ (w - 1) ∨ 2 ^ (w - 1) ≤ n)
    (hexact : overflow = false → wrapped.toInt = n) :
    unlessOverflow overflow wrapped = some z ↔ z.toInt = n := by
  cases overflow with
  | true =>
    have hout := hout rfl
    have hlow := z.le_toInt
    have hhigh := z.toInt_lt
    constructor
    · intro h
      cases h
    · intro h
      omega
  | false =>
    rw [← hexact rfl, BitVec.toInt_inj]
    constructor
    · rintro ⟨⟩
      rfl
    · rintro rfl
      rfl

theorem addSigned?_eq_some_iff : addSigned? x y = some z ↔ z.toInt = x.toInt + y.toInt := by
  apply unlessOverflow_eq_some_iff
  · intro h
    simp only [BitVec.saddOverflow, Bool.or_eq_true, decide_eq_true_eq] at h
    omega
  · intro h
    exact BitVec.toInt_add_of_not_saddOverflow (Bool.eq_false_iff.mp h)

theorem subSigned?_eq_some_iff : subSigned? x y = some z ↔ z.toInt = x.toInt - y.toInt := by
  apply unlessOverflow_eq_some_iff
  · intro h
    simp only [BitVec.ssubOverflow, Bool.or_eq_true, decide_eq_true_eq] at h
    omega
  · intro h
    exact BitVec.toInt_sub_of_not_ssubOverflow (Bool.eq_false_iff.mp h)

theorem mulSigned?_eq_some_iff : mulSigned? x y = some z ↔ z.toInt = x.toInt * y.toInt := by
  apply unlessOverflow_eq_some_iff
  · intro h
    simp only [BitVec.smulOverflow, Bool.or_eq_true, decide_eq_true_eq] at h
    omega
  · intro h
    exact BitVec.toInt_mul_of_not_smulOverflow (Bool.eq_false_iff.mp h)

/-- A natural number below half the range is a signed number as it stands. -/
theorem toInt_ofNat_of_lt {n : Nat} (h : n < 2 ^ (w - 1)) : (BitVec.ofNat w n).toInt = n := by
  rcases Nat.eq_zero_or_pos w with rfl | hw
  · obtain rfl : n = 0 := Nat.lt_one_iff.mp h
    rfl
  · have hhigh : (n : Int) < 2 ^ (w - 1) := by exact_mod_cast h
    rw [← BitVec.ofInt_natCast, BitVec.toInt_ofInt_eq_self hw (by omega) hhigh]

theorem signedOfNat?_eq_some_iff {n : Nat} : signedOfNat? w n = some z ↔ z.toInt = n := by
  apply unlessOverflow_eq_some_iff
  · intro h
    right
    exact_mod_cast of_decide_eq_true h
  · intro h
    exact toInt_ofNat_of_lt (not_le.mp (of_decide_eq_false h))

/-- An unsigned difference is one of natural numbers. -/
theorem subUnsigned?_eq_some_iff : subUnsigned? x y = some z ↔ z.toNat + y.toNat = x.toNat := by
  unfold subUnsigned? unlessOverflow
  by_cases h : x.toNat < y.toNat
  · rw [BitVec.usubOverflow, if_pos (decide_eq_true h)]
    constructor
    · intro hsome
      cases hsome
    · intro hsum
      omega
  · have hover : ¬x.usubOverflow y = true := by
      rw [BitVec.usubOverflow, decide_eq_true_eq]
      exact h
    rw [if_neg hover, Option.some.injEq, ← BitVec.toNat_inj,
      BitVec.toNat_sub_of_not_usubOverflow hover]
    omega

/-! ### Results that fit -/

/-- A difference that fits has a result. -/
theorem exists_subSigned? (hw : 0 < w) (hlow : -2 ^ (w - 1) ≤ x.toInt - y.toInt)
    (hhigh : x.toInt - y.toInt < 2 ^ (w - 1)) :
    ∃ z, subSigned? x y = some z ∧ z.toInt = x.toInt - y.toInt := by
  have hexact := BitVec.toInt_ofInt_eq_self hw hlow hhigh
  exact ⟨_, subSigned?_eq_some_iff.mpr hexact, hexact⟩

theorem signedOfNat?_of_lt {n : Nat} (h : n < 2 ^ (w - 1)) :
    signedOfNat? w n = some (BitVec.ofNat w n) :=
  signedOfNat?_eq_some_iff.mpr (toInt_ofNat_of_lt h)

end BoundSql.Number
