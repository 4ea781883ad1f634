import BoundSql.Number.Binary64
import Mathlib.Algebra.Order.Field.Rat
import Mathlib.Tactic.FieldSimp
import Mathlib.Tactic.NormNum
import Mathlib.Tactic.Ring

/-!
# The exact value of a double-precision number

A word of 64 bits has a sign, an exponent field of 11 bits and a fraction of 52 bits, and IEEE 754
says which number they stand for. Decoding the word into a significand and an exponent keeps that
number, so the integer that is read off them is the number itself, or there is none:

    toInteger?_eq_some_iff :  x.toInteger? = some n ↔ ieeeValue? x.word.toNat = some n
-/

namespace BoundSql.Number

/-- The number of a word in double precision, by its fields. The exponent is biased by 1023, and the
fraction follows a leading one unless the exponent field is zero; with an exponent field of ones the
word is an infinity or NaN. -/
def ieeeValue? (word : Nat) : Option ℚ :=
  let sign : ℚ := (-1) ^ (word / 2 ^ 63)
  let exponent : Nat := word / 2 ^ 52 % 2 ^ 11
  let fraction : Nat := word % 2 ^ 52
  if exponent = 2047 then none
  else if exponent = 0 then some (sign * 2 ^ (-1022 : Int) * (fraction / 2 ^ 52))
  else some (sign * 2 ^ ((exponent : Int) - 1023) * (1 + fraction / 2 ^ 52))

/-- The number that a magnitude stands for. -/
def Magnitude.value (x : Magnitude) : ℚ := x.significand * 2 ^ x.exponent

/-- The number that a datum stands for. -/
def Datum.value? : Datum → Option ℚ
  | .finite s x => some ((if s then -1 else 1) * x.value)
  | _ => none

/-! ### Decoding -/

namespace BinaryFormat

theorem minExponent_binary64 : binary64.minExponent = -1074 := rfl

theorem leadingOne_binary64 : binary64.leadingOne = 2 ^ 52 := rfl

theorem infinityWord_binary64 : binary64.infinityWord = 2047 * 2 ^ 52 := rfl

theorem signWeight_binary64 : binary64.signWeight = 2 ^ 63 := rfl

/-- A magnitude by its fields. -/
theorem value_unpackMagnitude {word field fraction : Nat} (hfield : word / 2 ^ 52 = field)
    (hfraction : word % 2 ^ 52 = fraction) :
    (binary64.unpackMagnitude word).value =
      if field = 0 then (2 : ℚ) ^ (-1022 : Int) * (fraction / 2 ^ 52)
      else (2 : ℚ) ^ ((field : Int) - 1023) * (1 + fraction / 2 ^ 52) := by
  have htwo : (2 : ℚ) ≠ 0 := by norm_num
  rw [unpackMagnitude, leadingOne_binary64, minExponent_binary64, hfield, hfraction]
  by_cases hzero : field = 0
  · have hexp : (-1074 : Int) = -1022 - (52 : Nat) := by norm_num
    rw [if_pos hzero, if_pos hzero, Magnitude.value, hexp, zpow_sub₀ htwo, zpow_natCast]
    ring
  · have hexp : (-1074 : Int) + ((field - 1 : Nat) : Int) =
        (field : Int) - 1023 - (52 : Nat) := by omega
    rw [if_neg hzero, if_neg hzero, Magnitude.value, hexp, zpow_sub₀ htwo, zpow_natCast]
    rw [Nat.cast_add, Nat.cast_pow, Nat.cast_ofNat]
    field_simp

/-- Decoding keeps the number. -/
theorem value?_decode_binary64 {word : Nat} (h : word < 2 ^ 64) :
    (binary64.decode word).value? = ieeeValue? word := by
  have hfield : word % 2 ^ 63 / 2 ^ 52 = word / 2 ^ 52 % 2 ^ 11 := by omega
  have hfraction : word % 2 ^ 63 % 2 ^ 52 = word % 2 ^ 52 := by omega
  have hsign : (if decide (2 ^ 63 ≤ word) = true then (-1 : ℚ) else 1) =
      (-1) ^ (word / 2 ^ 63) := by
    by_cases hnegative : 2 ^ 63 ≤ word
    · rw [decide_eq_true hnegative, if_pos rfl, show word / 2 ^ 63 = 1 by omega, pow_one]
    · rw [decide_eq_false hnegative, if_neg Bool.false_ne_true, show word / 2 ^ 63 = 0 by omega,
        pow_zero]
  rw [decode, signWeight_binary64, infinityWord_binary64, ieeeValue?]
  by_cases hfinite : word / 2 ^ 52 % 2 ^ 11 = 2047
  · -- infinities and NaN
    rw [if_neg (by omega), if_pos hfinite]
    split <;> rfl
  · rw [if_pos (by omega), if_neg hfinite, Datum.value?, hsign,
      value_unpackMagnitude hfield hfraction]
    split <;> rw [mul_assoc]

end BinaryFormat

/-! ### Integers -/

/-- A quotient that counts as many units is an integer exactly if the division leaves nothing. -/
theorem natCast_div_eq_intCast_iff {m unit : Nat} (hunit : unit ≠ 0) {n : Int} :
    (m : ℚ) / unit = n ↔ m % unit = 0 ∧ n = (m / unit : Nat) := by
  have hne : (unit : ℚ) ≠ 0 := Nat.cast_ne_zero.mpr hunit
  rw [div_eq_iff hne]
  constructor
  · intro h
    have hmul : (m : Int) = n * unit := by exact_mod_cast h
    have hdvd : (unit : Int) ∣ m := ⟨n, by rw [hmul, mul_comm]⟩
    refine ⟨Nat.mod_eq_zero_of_dvd (Int.natCast_dvd_natCast.mp hdvd), ?_⟩
    rw [Int.natCast_ediv, hmul, Int.mul_ediv_cancel _ (Nat.cast_ne_zero.mpr hunit)]
  · rintro ⟨hmod, rfl⟩
    have hexact : m / unit * unit = m := Nat.div_mul_cancel (Nat.dvd_of_mod_eq_zero hmod)
    exact_mod_cast hexact.symm

/-- A magnitude is an integer exactly if nothing is left behind its binary point. -/
theorem Magnitude.value_eq_intCast_iff {x : Magnitude} {n : Int} :
    x.value = n ↔ x.significand % pow2 (-x.exponent).toNat = 0 ∧
      n = (x.significand / pow2 (-x.exponent).toNat * pow2 x.exponent.toNat : Nat) := by
  obtain ⟨m, q⟩ := x
  have hzero : pow2 0 = 1 := rfl
  by_cases hq : 0 ≤ q
  · obtain ⟨k, rfl⟩ := Int.eq_ofNat_of_zero_le hq
    have hvalue : value ⟨m, k⟩ = ((m * 2 ^ k : Nat) : Int) := by
      rw [value, zpow_natCast]
      push_cast
      rfl
    have hneg : (-(k : Int)).toNat = 0 := by omega
    simp only [hvalue, hneg, hzero, Nat.mod_one, Nat.div_one, Int.toNat_natCast, true_and]
    rw [Int.cast_inj, eq_comm]
    rfl
  · obtain ⟨k, rfl⟩ : ∃ k : Nat, q = -k := ⟨(-q).toNat, by omega⟩
    have hvalue : value ⟨m, -k⟩ = m / (2 ^ k : Nat) := by
      rw [value, zpow_neg, zpow_natCast, Nat.cast_pow, Nat.cast_ofNat, div_eq_mul_inv]
    have hneg : (-(k : Int)).toNat = 0 := by omega
    have hunit : 2 ^ k ≠ 0 := by positivity
    simp only [hvalue, neg_neg, hneg, hzero, Nat.mul_one, Int.toNat_natCast]
    exact natCast_div_eq_intCast_iff hunit

namespace Binary64

/-- The integer that is read off a number is the number. -/
theorem toInteger?_eq_some_iff {x : Binary64} {n : Int} :
    x.toInteger? = some n ↔ ieeeValue? x.word.toNat = some (n : ℚ) := by
  have hdatum : x.datum.value? = ieeeValue? x.word.toNat :=
    BinaryFormat.value?_decode_binary64 x.word.toNat_lt
  rw [← hdatum, toInteger?]
  cases x.datum with
  | nan s => simp [Datum.value?]
  | infinity s => simp [Datum.value?]
  | finite s m =>
    simp only [Datum.value?, Option.ite_none_right_eq_some, Option.some.injEq]
    cases s with
    | false =>
      rw [if_neg Bool.false_ne_true, if_neg Bool.false_ne_true, one_mul,
        Magnitude.value_eq_intCast_iff, eq_comm (b := n)]
    | true =>
      have hsign : -1 * m.value = (n : ℚ) ↔ m.value = ((-n : Int) : ℚ) := by
        rw [neg_one_mul, Int.cast_neg, neg_eq_iff_eq_neg]
      rw [if_pos rfl, if_pos rfl, hsign, Magnitude.value_eq_intCast_iff, neg_eq_iff_eq_neg,
        eq_comm (b := -n)]

end Binary64

end BoundSql.Number
