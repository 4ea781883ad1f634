import BoundSql.Number.Digits
import Mathlib.Algebra.Order.Ring.Nat
import Mathlib.Tactic.Ring

/-!
# The value of digit texts

Digits are read from the left: putting two texts one after the other shifts the first by as many
places as the second is long. Zeros on the left change nothing, zeros on the right shift.

    digitsValue_append :  digitsValue (cs ++ ds) = digitsValue cs · 10 ^ |ds| + digitsValue ds
-/

namespace BoundSql.Number

@[simp] theorem digitsValue_nil : digitsValue [] = 0 := rfl

theorem digitsValue_append (cs ds : List Char) :
    digitsValue (cs ++ ds) = digitsValue cs * 10 ^ ds.length + digitsValue ds := by
  rw [digitsValue, Nat.ofDigitChars_append, Nat.ofDigitChars_eq_ofDigitChars_zero, digitsValue,
    digitsValue, Nat.mul_comm]

theorem digitsValue_cons (c : Char) (cs : List Char) :
    digitsValue (c :: cs) = digitsValue [c] * 10 ^ cs.length + digitsValue cs :=
  digitsValue_append [c] cs

@[simp] theorem digitsValue_replicate_zero (n : Nat) :
    digitsValue (List.replicate n '0') = 0 := by
  rw [digitsValue, Nat.ofDigitChars_replicate_zero, Nat.mul_zero]

/-- Zeros on the left change nothing. -/
theorem digitsValue_zeros_append (n : Nat) (cs : List Char) :
    digitsValue (List.replicate n '0' ++ cs) = digitsValue cs := by
  rw [digitsValue_append, digitsValue_replicate_zero, Nat.zero_mul, Nat.zero_add]

/-- Zeros on the right shift the digits. -/
theorem digitsValue_append_zeros (cs : List Char) (n : Nat) :
    digitsValue (cs ++ List.replicate n '0') = digitsValue cs * 10 ^ n := by
  rw [digitsValue_append, digitsValue_replicate_zero, List.length_replicate, Nat.add_zero]

theorem digitsValue_dropWhile_zero (cs : List Char) :
    digitsValue (cs.dropWhile (· == '0')) = digitsValue cs := by
  induction cs with
  | nil => rfl
  | cons c cs ih =>
    rw [List.dropWhile_cons]
    split
    · next h =>
      have hc : c = '0' := by simpa using h
      have hz : digitsValue ['0'] = 0 := rfl
      rw [ih, digitsValue_cons, hc, hz, Nat.zero_mul, Nat.zero_add]
    · rfl

/-- The codes of the digits. -/
theorem toNat_of_isDigit {c : Char} (h : c.isDigit = true) : 48 ≤ c.toNat ∧ c.toNat ≤ 57 := by
  simp only [Char.isDigit, Bool.and_eq_true, decide_eq_true_eq] at h
  exact h

/-- One digit is below ten. -/
theorem digitsValue_singleton_lt {c : Char} (h : c.isDigit = true) : digitsValue [c] < 10 := by
  have hc := toNat_of_isDigit h
  have hv : digitsValue [c] = c.toNat - '0'.toNat := by
    simp [digitsValue, Nat.ofDigitChars_cons]
  have h0 : '0'.toNat = 48 := rfl
  omega

/-- As many digits as there are write a number below that power of ten. -/
theorem digitsValue_lt {cs : List Char} (h : isDigits cs = true) :
    digitsValue cs < 10 ^ cs.length := by
  induction cs with
  | nil => simp
  | cons c cs ih =>
    simp only [isDigits, List.all_cons, Bool.and_eq_true] at h
    have hc := digitsValue_singleton_lt h.1
    have hcs := ih h.2
    calc digitsValue (c :: cs)
        = digitsValue [c] * 10 ^ cs.length + digitsValue cs := digitsValue_cons c cs
      _ < digitsValue [c] * 10 ^ cs.length + 10 ^ cs.length := by omega
      _ = (digitsValue [c] + 1) * 10 ^ cs.length := by ring
      _ ≤ 10 * 10 ^ cs.length := Nat.mul_le_mul_right _ hc
      _ = 10 ^ (c :: cs).length := by rw [List.length_cons, Nat.pow_succ, Nat.mul_comm]

theorem isDigits_replicate_zero (n : Nat) : isDigits (List.replicate n '0') = true := by
  rw [isDigits, List.all_replicate]
  split <;> rfl

/-- Some of the digits are digits. -/
theorem isDigits_of_subset {cs ds : List Char} (h : isDigits ds = true) (hsubset : cs ⊆ ds) :
    isDigits cs = true := by
  rw [isDigits, List.all_eq_true] at h ⊢
  intro c hc
  exact h c (hsubset hc)

theorem isDigits_dropWhile {p : Char → Bool} {cs : List Char} (h : isDigits cs = true) :
    isDigits (cs.dropWhile p) = true :=
  isDigits_of_subset h (List.dropWhile_sublist p).subset

/-! ### Texts of integers -/

theorem isDigit_of_mem_toDigits {n : Nat} {c : Char} (h : c ∈ Nat.toDigits 10 n) :
    c.isDigit = true := Nat.isDigit_of_mem_toDigits (by decide) (by decide) h

theorem isDigits_toDigits (n : Nat) : isDigits (Nat.toDigits 10 n) = true :=
  List.all_eq_true.mpr fun _ h => isDigit_of_mem_toDigits h

/-- An integer is written as its digits, after a minus sign if it is negative. -/
theorem toList_integerText (n : Int) :
    (integerText n).toList =
      (if decide (n < 0) then ['-'] else []) ++ Nat.toDigits 10 n.natAbs := by
  unfold integerText
  by_cases h : n < 0
  · rw [if_pos h, if_pos (by simpa using h), String.toList_append, toList_naturalText]
    rfl
  · rw [if_neg h, if_neg (by simpa using h), toList_naturalText]
    rfl

theorem mem_integerText {n : Int} {c : Char} (h : c ∈ (integerText n).toList) :
    c = '-' ∨ c.isDigit = true := by
  rw [toList_integerText, List.mem_append] at h
  rcases h with hsign | hdigit
  · split at hsign
    · exact .inl (List.mem_singleton.mp hsign)
    · cases hsign
  · exact .inr (isDigit_of_mem_toDigits hdigit)

end BoundSql.Number
