import BoundSql.Number.Shortest
import BoundSql.Proofs.Number.ExactValue

/-!
# Rounding natural numbers to double precision

A natural number is rounded to the nearest magnitude of double precision. The numbers that are
rounded to one magnitude are those in its interval, the ends of which belong to them only if the
significand is even; for magnitudes of 2⁵⁴ and more the interval is one of whole numbers:

    nearest?_eq_some_iff :  nearest? k 1 = some ⟨m, q + 2⟩ ↔ (interval ⟨m, q + 2⟩).Contains (2 ^ q) k

Since the word of a rounded number decodes to what was encoded, two numbers have the same word
exactly if they are rounded to the same magnitude (`ofInt_eq_ofInt_iff`).
-/

namespace BoundSql.Number

theorem pow2_eq (n : Nat) : pow2 n = 2 ^ n := rfl

/-! ### The nearest quotient -/

/-- A quotient that is nearest to the fraction is at most a half away from it, and less than that if
it is odd. -/
theorem roundHalfEven_spec {num den : Nat} (hden : 0 < den) {m : Nat}
    (h : roundHalfEven num den = m) :
    (2 * (m * den) ≤ 2 * num + den ∧ 2 * num ≤ 2 * (m * den) + den) ∧
      (m % 2 = 1 → 2 * (m * den) < 2 * num + den ∧ 2 * num < 2 * (m * den) + den) := by
  have hdivision : num / den * den + num % den = num := Nat.div_add_mod' num den
  have hremainder : num % den < den := Nat.mod_lt num hden
  have hnext : (num / den + 1) * den = num / den * den + den := Nat.succ_mul _ _
  subst h
  simp only [roundHalfEven]
  split
  · omega
  · split
    · rw [hnext]
      omega
    · -- halfway: the even neighbour is the quotient itself or the next number
      rcases Nat.mod_two_eq_zero_or_one (num / den) with heven | hodd
      · rw [heven, Nat.add_zero]
        omega
      · rw [hodd, hnext]
        omega

theorem roundHalfEven_eq_iff {num den m : Nat} (hden : 0 < den) :
    roundHalfEven num den = m ↔
      (2 * (m * den) ≤ 2 * num + den ∧ 2 * num ≤ 2 * (m * den) + den) ∧
        (m % 2 = 1 → 2 * (m * den) < 2 * num + den ∧ 2 * num < 2 * (m * den) + den) := by
  refine ⟨roundHalfEven_spec hden, fun h => ?_⟩
  have hspec := roundHalfEven_spec hden (rfl : roundHalfEven num den = _)
  generalize roundHalfEven num den = n at hspec ⊢
  -- two such quotients are neighbours at most, and of two neighbours one is odd
  have hgap {a b : Nat} (hlt : a < b) : a * den + den ≤ b * den ∧ (b ≠ a + 1 →
      a * den + 2 * den ≤ b * den) := by
    constructor
    · rw [← Nat.succ_mul]
      exact Nat.mul_le_mul_right den hlt
    · intro hne
      rw [← Nat.add_mul]
      exact Nat.mul_le_mul_right den (by omega)
  rcases Nat.lt_trichotomy n m with hlt | heq | hgt
  · obtain ⟨hone, htwo⟩ := hgap hlt
    omega
  · exact heq
  · obtain ⟨hone, htwo⟩ := hgap hgt
    omega

/-- A fraction between two whole numbers is rounded to one between them. -/
theorem roundHalfEven_mem {num den a b : Nat} (hden : 0 < den) (hlow : a * den ≤ num)
    (hhigh : num < b * den) : a ≤ roundHalfEven num den ∧ roundHalfEven num den ≤ b := by
  obtain ⟨⟨hle, hge⟩, -⟩ := roundHalfEven_spec hden (rfl : roundHalfEven num den = _)
  generalize roundHalfEven num den = m at hle hge ⊢
  constructor
  · by_contra hlt
    have hnext : (m + 1) * den ≤ a * den := Nat.mul_le_mul_right den (by omega)
    rw [Nat.succ_mul] at hnext
    omega
  · by_contra hlt
    have hnext : (b + 1) * den ≤ m * den := Nat.mul_le_mul_right den (by omega)
    rw [Nat.succ_mul] at hnext
    omega

/-! ### The nearest magnitude of a natural number -/

theorem floorLog2_one {k : Nat} (hk : k ≠ 0) : floorLog2 k 1 = k.log2 := by
  have hlow : 2 ^ k.log2 ≤ k := Nat.log2_self_le hk
  have hone : Nat.log2 1 = 0 := rfl
  simp only [floorLog2, hone, Nat.cast_zero, sub_zero, pow2_eq, Int.toNat_natCast, one_mul]
  rw [show (-(k.log2 : Int)).toNat = 0 by omega, pow_zero, Nat.mul_one, if_neg (by omega)]

namespace BinaryFormat

theorem maxExponent_binary64 : binary64.maxExponent = 971 := rfl

theorem nearest?_zero : binary64.nearest? 0 1 = some ⟨0, -1074⟩ := rfl

/-- The significand that a number with the leading binary place `L` is rounded to; it is `2 ^ 53` if
the number is rounded up to the next power of two. -/
def roundedSignificand (k L : Nat) : Nat := roundHalfEven (k * 2 ^ (52 - L)) (2 ^ (L - 52))

/-- A number of more than 53 binary places loses those after the 53rd. -/
theorem roundedSignificand_add (k n : Nat) :
    roundedSignificand k (n + 52) = roundHalfEven k (2 ^ n) := by
  rw [roundedSignificand, show 52 - (n + 52) = 0 by omega, pow_zero, Nat.mul_one,
    Nat.add_sub_cancel]

/-- The magnitude of a number between two powers of two: its significand is rounded, and if that
makes it `2 ^ 53` it is halved. -/
theorem nearest?_one_eq_some_iff {k L m : Nat} {q : Int} (hlow : 2 ^ L ≤ k)
    (hhigh : k < 2 ^ (L + 1)) :
    binary64.nearest? k 1 = some ⟨m, q⟩ ↔
      q ≤ 971 ∧ (roundedSignificand k L = 2 ^ 53 ∧ m = 2 ^ 52 ∧ q = L - 51 ∨
        roundedSignificand k L ≠ 2 ^ 53 ∧ m = roundedSignificand k L ∧ q = L - 52) := by
  have hk : k ≠ 0 := by
    have hpos : 0 < 2 ^ L := Nat.two_pow_pos L
    omega
  have hlog : k.log2 = L := (Nat.log2_eq_iff hk).mpr ⟨hlow, hhigh⟩
  have hexponent : max (-1074) ((L : Int) - (53 - 1 : Nat)) = (L : Int) - 52 := by omega
  have hneg : (-((L : Int) - 52)).toNat = 52 - L := by omega
  have hpos : ((L : Int) - 52).toNat = L - 52 := by omega
  have hprecision : binary64.precision = 53 := rfl
  have hround : roundHalfEven (k * 2 ^ (52 - L)) (2 ^ (L - 52)) = roundedSignificand k L := rfl
  rw [nearest?, if_neg hk, floorLog2_one hk, hlog, minExponent_binary64, maxExponent_binary64,
    leadingOne_binary64, hprecision, hexponent]
  simp only [hneg, hpos, pow2_eq, Nat.one_mul, hround, Option.ite_none_right_eq_some,
    Option.some.injEq]
  by_cases hcarry : roundedSignificand k L = 2 ^ 53
  · simp only [hcarry, if_true, Magnitude.mk.injEq, ne_eq, not_true, true_and, false_and, or_false]
    omega
  · simp only [hcarry, if_false, Magnitude.mk.injEq, ne_eq, not_false_eq_true, true_and, false_and,
      false_or]
    omega

/-- A number that is not zero lies between two powers of two. -/
theorem exists_leadingPlace {k : Nat} (hk : k ≠ 0) : ∃ L, 2 ^ L ≤ k ∧ k < 2 ^ (L + 1) :=
  ⟨k.log2, Nat.log2_self_le hk, Nat.lt_log2_self⟩

theorem roundedSignificand_mem {k L : Nat} (hlow : 2 ^ L ≤ k) (hhigh : k < 2 ^ (L + 1)) :
    2 ^ 52 ≤ roundedSignificand k L ∧ roundedSignificand k L ≤ 2 ^ 53 := by
  apply roundHalfEven_mem (Nat.two_pow_pos _)
  · calc 2 ^ 52 * 2 ^ (L - 52) = 2 ^ L * 2 ^ (52 - L) := by
          rw [← pow_add, ← pow_add]
          congr 1
          omega
      _ ≤ k * 2 ^ (52 - L) := Nat.mul_le_mul_right _ hlow
  · calc k * 2 ^ (52 - L) < 2 ^ (L + 1) * 2 ^ (52 - L) :=
          Nat.mul_lt_mul_of_pos_right hhigh (Nat.two_pow_pos _)
      _ = 2 ^ 53 * 2 ^ (L - 52) := by
          rw [← pow_add, ← pow_add]
          congr 1
          omega

end BinaryFormat

/-! ### Encoding and decoding -/

/-- A magnitude as it is stored: with a leading one, unless the exponent is the least. -/
structure Magnitude.IsStored (x : Magnitude) : Prop where
  lt : x.significand < 2 ^ 53
  low : -1074 ≤ x.exponent
  high : x.exponent ≤ 971
  leading : 2 ^ 52 ≤ x.significand ∨ x.exponent = -1074

/-- A datum as it is stored. -/
def Datum.IsStored : Datum → Prop
  | .finite _ x => x.IsStored
  | _ => True

namespace BinaryFormat

theorem packMagnitude_lt {x : Magnitude} (h : x.IsStored) :
    binary64.packMagnitude x < 2047 * 2 ^ 52 := by
  obtain ⟨hlt, hlow, hhigh, -⟩ := h
  rw [packMagnitude, leadingOne_binary64, minExponent_binary64]
  omega

theorem unpackMagnitude_packMagnitude {x : Magnitude} (h : x.IsStored) :
    binary64.unpackMagnitude (binary64.packMagnitude x) = x := by
  obtain ⟨m, q⟩ := x
  obtain ⟨hlt, hlow, hhigh, hleading⟩ := h
  simp only at hlt hlow hhigh hleading
  obtain ⟨p, rfl⟩ : ∃ p : Nat, q = (p : Int) - 1074 := ⟨(q + 1074).toNat, by omega⟩
  have hp : ((p : Int) - 1074 - -1074).toNat = p := by omega
  simp only [unpackMagnitude, packMagnitude, leadingOne_binary64, minExponent_binary64, hp]
  by_cases hm : m < 2 ^ 52
  · -- no leading one: the exponent field is zero
    have hfield : (p * 2 ^ 52 + m) / 2 ^ 52 = 0 := by omega
    rw [if_pos hfield, Magnitude.mk.injEq]
    omega
  · have hfield : (p * 2 ^ 52 + m) / 2 ^ 52 = p + 1 := by omega
    rw [hfield, if_neg (by omega), Magnitude.mk.injEq]
    omega

/-- A word of a finite number without its sign. -/
theorem decode_finite {s : Bool} {word : Nat} (h : word < 2047 * 2 ^ 52) :
    binary64.decode ((if s then 2 ^ 63 else 0) + word) =
      .finite s (binary64.unpackMagnitude word) := by
  have hmagnitude : ((if s then 2 ^ 63 else 0) + word) % 2 ^ 63 = word := by
    split <;> omega
  have hsign : decide (2 ^ 63 ≤ (if s then 2 ^ 63 else 0) + word) = s := by
    cases s
    · exact decide_eq_false (by simp only [Bool.false_eq_true, if_false]; omega)
    · exact decide_eq_true (by simp only [if_true]; omega)
  simp only [decode, signWeight_binary64, infinityWord_binary64, hmagnitude, if_pos h]
  exact congrArg (Datum.finite · _) hsign

theorem decode_encode {d : Datum} (h : d.IsStored) : binary64.decode (binary64.encode d) = d := by
  cases d with
  | nan s => cases s <;> rfl
  | infinity s => cases s <;> rfl
  | finite s x =>
    rw [encode, signWeight_binary64, decode_finite (packMagnitude_lt h),
      unpackMagnitude_packMagnitude h]

theorem encode_lt {d : Datum} (h : d.IsStored) : binary64.encode d < 2 ^ 64 := by
  cases d with
  | nan s => cases s <;> decide
  | infinity s => cases s <;> decide
  | finite s x =>
    have hlt := packMagnitude_lt h
    rw [encode, signWeight_binary64]
    split <;> omega

/-- What a natural number is rounded to is stored as it is. -/
theorem isStored_of_nearest? {k : Nat} {x : Magnitude} (h : binary64.nearest? k 1 = some x) :
    x.IsStored := by
  by_cases hk : k = 0
  · rw [hk, nearest?_zero, Option.some.injEq] at h
    subst h
    exact ⟨by decide, by decide, by decide, .inr rfl⟩
  · obtain ⟨L, hlow, hhigh⟩ := exists_leadingPlace hk
    obtain ⟨hmin, hmax⟩ := roundedSignificand_mem hlow hhigh
    obtain ⟨m, q⟩ := x
    rw [nearest?_one_eq_some_iff hlow hhigh] at h
    obtain ⟨hexponent, ⟨-, rfl, rfl⟩ | ⟨hcarry, rfl, rfl⟩⟩ := h
    · exact ⟨by simp only; omega, by simp only; omega, hexponent, .inl le_rfl⟩
    · exact ⟨by simp only; omega, by simp only; omega, hexponent, .inl hmin⟩

theorem isStored_round (s : Bool) (k : Nat) : (binary64.round s k 1).IsStored := by
  rw [round]
  split
  · next h => exact isStored_of_nearest? h
  · trivial

end BinaryFormat

namespace Binary64

open BinaryFormat

theorem datum_ofDatum {d : Datum} (h : d.IsStored) : (ofDatum d).datum = d := by
  rw [datum, ofDatum, UInt64.toNat_ofNat_of_lt' (encode_lt h), decode_encode h]

theorem datum_ofInt_natCast (k : Nat) : (ofInt k).datum = binary64.round false k 1 := by
  rw [ofInt, decide_eq_false (by omega), Int.natAbs_natCast, datum_ofDatum (isStored_round _ _)]

/-- Two natural numbers are stored as the same word exactly if they are rounded to the same
magnitude. -/
theorem ofInt_eq_ofInt_iff {j k : Nat} :
    ofInt j = ofInt k ↔ binary64.nearest? j 1 = binary64.nearest? k 1 := by
  constructor
  · intro h
    have hdatum : binary64.round false j 1 = binary64.round false k 1 := by
      rw [← datum_ofInt_natCast, ← datum_ofInt_natCast, h]
    simp only [BinaryFormat.round] at hdatum
    cases hj : binary64.nearest? j 1 <;> cases hk : binary64.nearest? k 1 <;> simp_all
  · intro h
    rw [ofInt, ofInt, decide_eq_false (by omega), decide_eq_false (by omega), Int.natAbs_natCast,
      Int.natAbs_natCast, BinaryFormat.round, BinaryFormat.round, h]

end Binary64

/-! ### The interval of a magnitude -/

/-- The number `y` belongs to the interval, whose unit is `unit`. -/
def RoundingInterval.Contains (r : RoundingInterval) (unit y : Nat) : Prop :=
  if r.closed then r.low * unit ≤ y ∧ y ≤ r.high * unit
  else r.low * unit < y ∧ y < r.high * unit

instance (r : RoundingInterval) (unit y : Nat) : Decidable (r.Contains unit y) :=
  inferInstanceAs (Decidable (if r.closed = true then r.low * unit ≤ y ∧ y ≤ r.high * unit
    else r.low * unit < y ∧ y < r.high * unit))

namespace BinaryFormat

/-- An interval in numbers of its own unit: below a power of two it is half as long as above. -/
theorem contains_interval_iff {m u y : Nat} {q : Int} (hm : 2 ^ 52 ≤ m) (hq : -1074 < q) :
    (binary64.interval ⟨m, q⟩).Contains u y ↔
      (4 * (m * u) ≤ y + (if m = 2 ^ 52 then u else 2 * u) ∧ y ≤ 4 * (m * u) + 2 * u) ∧
        (m % 2 = 1 → 4 * (m * u) < y + 2 * u ∧ y < 4 * (m * u) + 2 * u) := by
  have hhigh : (4 * m + 2) * u = 4 * (m * u) + 2 * u := by ring
  have hmu : 2 ^ 52 * u ≤ m * u := Nat.mul_le_mul_right u hm
  simp only [RoundingInterval.Contains, interval, leadingOne_binary64, minExponent_binary64, hq,
    and_true, decide_eq_true_eq, hhigh]
  by_cases hpower : m = 2 ^ 52
  · have hlow : (4 * m - 1) * u = 4 * (m * u) - u := by
      rw [Nat.sub_mul, Nat.mul_assoc, Nat.one_mul]
    rw [if_pos hpower, if_pos hpower, hlow, if_pos (by omega)]
    omega
  · have hlow : (4 * m - 2) * u = 4 * (m * u) - 2 * u := by rw [Nat.sub_mul, Nat.mul_assoc]
    rw [if_neg hpower, if_neg hpower, hlow]
    split <;> omega

section WholeNumbers

variable {k m q : Nat} (hmin : 2 ^ 52 ≤ m) (hmax : m < 2 ^ 53)
include hmin

theorem contains_of_nearest? (h : binary64.nearest? k 1 = some ⟨m, q + 2⟩) :
    (binary64.interval ⟨m, q + 2⟩).Contains (2 ^ q) k := by
  have hk : k ≠ 0 := by
    rintro rfl
    rw [nearest?_zero, Option.some.injEq, Magnitude.mk.injEq] at h
    omega
  obtain ⟨L, hlow, hhigh⟩ := exists_leadingPlace hk
  rw [nearest?_one_eq_some_iff hlow hhigh] at h
  have hpos : 0 < 2 ^ q := Nat.two_pow_pos q
  rw [contains_interval_iff hmin (by omega)]
  obtain ⟨-, ⟨hround, rfl, hexponent⟩ | ⟨-, hround, hexponent⟩⟩ := h
  · -- below a power of two, where two magnitudes are two units apart
    obtain rfl : L = q + 1 + 52 := by omega
    have hdouble : 2 ^ (q + 1) = 2 * 2 ^ q := by ring
    have hpower : 2 ^ (q + 1 + 52 + 1) = 4 * (2 ^ 52 * 2 ^ q) := by ring
    rw [roundedSignificand_add, hdouble] at hround
    have hspec := roundHalfEven_spec (by omega) hround
    rw [if_pos rfl]
    omega
  · obtain rfl : L = q + 2 + 52 := by omega
    have hquadruple : 2 ^ (q + 2) = 4 * 2 ^ q := by ring
    have hmul : m * (4 * 2 ^ q) = 4 * (m * 2 ^ q) := by ring
    have hpower : 2 ^ (q + 2 + 52) = 4 * (2 ^ 52 * 2 ^ q) := by ring
    rw [roundedSignificand_add, hquadruple] at hround
    have hspec := roundHalfEven_spec (by omega) hround.symm
    rw [hmul] at hspec
    split
    · next heq =>
      subst heq
      omega
    · omega

include hmax

theorem nearest?_of_contains (hq : q ≤ 969)
    (h : (binary64.interval ⟨m, q + 2⟩).Contains (2 ^ q) k) :
    binary64.nearest? k 1 = some ⟨m, q + 2⟩ := by
  rw [contains_interval_iff hmin (by omega)] at h
  have hpos : 0 < 2 ^ q := Nat.two_pow_pos q
  have hmulMin : 2 ^ 52 * 2 ^ q ≤ m * 2 ^ q := Nat.mul_le_mul_right _ hmin
  have hpower : 2 ^ (q + 2 + 52) = 4 * (2 ^ 52 * 2 ^ q) := by ring
  by_cases hlow : 2 ^ (q + 2 + 52) ≤ k
  · have hmulMax : (m + 1) * 2 ^ q ≤ 2 ^ 53 * 2 ^ q := Nat.mul_le_mul_right _ hmax
    have hnext : 2 ^ (q + 2 + 52 + 1) = 4 * (2 ^ 53 * 2 ^ q) := by ring
    have hquadruple : 2 ^ (q + 2) = 4 * 2 ^ q := by ring
    have hmul : m * (4 * 2 ^ q) = 4 * (m * 2 ^ q) := by ring
    rw [Nat.succ_mul] at hmulMax
    have hround : roundedSignificand k (q + 2 + 52) = m := by
      rw [roundedSignificand_add, hquadruple, roundHalfEven_eq_iff (by omega), hmul]
      split at h <;> omega
    rw [nearest?_one_eq_some_iff hlow (by omega), hround]
    omega
  · -- below a power of two
    obtain rfl : m = 2 ^ 52 := by
      by_contra hne
      have hmul : (2 ^ 52 + 1) * 2 ^ q ≤ m * 2 ^ q := Nat.mul_le_mul_right _ (by omega)
      rw [Nat.succ_mul] at hmul
      rw [if_neg hne] at h
      omega
    have hdouble : 2 ^ (q + 1) = 2 * 2 ^ q := by ring
    have hhalf : 2 ^ (q + 1 + 52) = 2 * (2 ^ 52 * 2 ^ q) := by ring
    have hhigh : 2 ^ (q + 1 + 52 + 1) = 4 * (2 ^ 52 * 2 ^ q) := by ring
    rw [if_pos rfl] at h
    have hround : roundedSignificand k (q + 1 + 52) = 2 ^ 53 := by
      rw [roundedSignificand_add, hdouble, roundHalfEven_eq_iff (by omega)]
      omega
    rw [nearest?_one_eq_some_iff (L := q + 1 + 52) (by omega) (by omega), hround]
    omega

/-- The whole numbers that are rounded to a magnitude of 2⁵⁴ or more are those of its interval. -/
theorem nearest?_eq_some_iff (hq : q ≤ 969) :
    binary64.nearest? k 1 = some ⟨m, q + 2⟩ ↔
      (binary64.interval ⟨m, q + 2⟩).Contains (2 ^ q) k :=
  ⟨contains_of_nearest? hmin, nearest?_of_contains hmin hmax hq⟩

end WholeNumbers

end BinaryFormat

end BoundSql.Number
