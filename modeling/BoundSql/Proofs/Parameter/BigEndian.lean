import BoundSql.Proofs.Parameter.Wire
import Mathlib.Data.Nat.Digits.Defs
import Mathlib.Tactic.Ring

/-!
# Integers of several bytes

The receiver's side of an integer column: the bytes are the digits of a number in base 256, the most
significant one first, and the numbers in the upper half of the range stand for negative ones. Every
integer of a width has exactly one list of bytes:

    signedOf_eq_iff :  bytes.length = width → (signedOf bytes = n ↔ bytes = bigEndian width n)
-/

namespace BoundSql.Parameter

/-- The natural number of bytes, the most significant one first. -/
def unsignedOf (bytes : List UInt8) : Nat := Nat.ofDigits 256 (bytes.reverse.map UInt8.toNat)

/-- The integer of bytes in two's complement, the most significant one first. -/
def signedOf (bytes : List UInt8) : Int := Int.bmod (unsignedOf bytes) (256 ^ bytes.length)

theorem unsignedOf_concat (bytes : List UInt8) (byte : UInt8) :
    unsignedOf (bytes ++ [byte]) = byte.toNat + 256 * unsignedOf bytes := by
  rw [unsignedOf, List.reverse_append, List.reverse_singleton, List.singleton_append, List.map_cons,
    Nat.ofDigits_cons]
  rfl

theorem mem_digits_lt (bytes : List UInt8) :
    ∀ digit ∈ bytes.reverse.map UInt8.toNat, digit < 256 := by
  intro digit hdigit
  obtain ⟨byte, -, rfl⟩ := List.mem_map.mp hdigit
  exact byte.toNat_lt

theorem unsignedOf_lt (bytes : List UInt8) : unsignedOf bytes < 256 ^ bytes.length := by
  have h := Nat.ofDigits_lt_base_pow_length (by decide) (mem_digits_lt bytes)
  rwa [List.length_map, List.length_reverse] at h

/-- Bytes of one length are told apart by their number. -/
theorem unsignedOf_inj {as bs : List UInt8} (hlength : as.length = bs.length)
    (h : unsignedOf as = unsignedOf bs) : as = bs := by
  have hmap := Nat.ofDigits_inj_of_len_eq (by decide) (by simpa using hlength) (mem_digits_lt as)
    (mem_digits_lt bs) h
  exact List.reverse_inj.mp (List.map_injective_iff.mpr (fun _ _ => UInt8.toNat_inj.mp) hmap)

theorem signedOf_inj {as bs : List UInt8} (hlength : as.length = bs.length)
    (h : signedOf as = signedOf bs) : as = bs := by
  have hmod := congrArg (· % ((256 ^ bs.length : Nat) : Int)) h
  simp only [signedOf, hlength, Int.bmod_emod] at hmod
  have ha := unsignedOf_lt as
  have hb := unsignedOf_lt bs
  rw [hlength] at ha
  rw [Int.emod_eq_of_lt (by omega) (by omega), Int.emod_eq_of_lt (by omega) (by omega)] at hmod
  exact unsignedOf_inj hlength (by omega)

/-! ### What is sent -/

/-- The last byte is what a division by 256 leaves, the others are those of the quotient. -/
theorem bigEndian_succ (width : Nat) (n : Int) :
    bigEndian (width + 1) n = bigEndian width (n / 256) ++ [UInt8.ofNat (n % 256).toNat] := by
  have hzero : n / (Number.pow2 (8 * 0) : Nat) = n := Int.ediv_one n
  have hshift (i : Nat) :
      n / (Number.pow2 (8 * (i + 1)) : Nat) = n / 256 / (Number.pow2 (8 * i) : Nat) := by
    have hpow : (Number.pow2 (8 * (i + 1)) : Int) = 256 * (Number.pow2 (8 * i) : Nat) := by
      show ((2 ^ (8 * i + 8) : Nat) : Int) = 256 * (2 ^ (8 * i) : Nat)
      rw [pow_add]
      push_cast
      ring
    rw [hpow, Int.ediv_ediv_of_nonneg (by decide)]
  simp only [bigEndian, List.range_succ_eq_map, List.reverse_cons, List.map_append, List.map_cons,
    List.map_nil, hzero, ← List.map_reverse, List.map_map, Function.comp_def, Nat.succ_eq_add_one,
    hshift]

theorem unsignedOf_bigEndian (width : Nat) (n : Int) :
    unsignedOf (bigEndian width n) = n % ((256 ^ width : Nat) : Int) := by
  induction width generalizing n with
  | zero => simp [bigEndian, unsignedOf]
  | succ width ih =>
    have hpow : ((256 ^ (width + 1) : Nat) : Int) = 256 * ((256 ^ width : Nat) : Int) := by
      push_cast
      ring
    have hlast : ((n % 256).toNat : Int) = n % 256 := Int.toNat_of_nonneg (by omega)
    rw [bigEndian_succ, unsignedOf_concat, toNat_ofNat_emod, Nat.cast_add, Nat.cast_mul, ih, hlast,
      hpow, Int.emod_def n (256 * _), ← Int.ediv_ediv_of_nonneg (by decide), Int.emod_def n,
      Int.emod_def (n / 256)]
    push_cast
    ring

/-- Every integer of a width survives. -/
theorem signedOf_bigEndian {width : Nat} {n : Int} (hwidth : 0 < width)
    (hlow : -2 ^ (8 * width - 1) ≤ n) (hhigh : n < 2 ^ (8 * width - 1)) :
    signedOf (bigEndian width n) = n := by
  have hhalf : ((256 ^ width : Nat) : Int) = 2 * 2 ^ (8 * width - 1) := by
    have h256 : (256 : Int) = 2 ^ 8 := by norm_num
    rw [← pow_succ', show 8 * width - 1 + 1 = 8 * width by omega, pow_mul, ← h256]
    exact Nat.cast_pow 256 width
  rw [signedOf, unsignedOf_bigEndian, length_bigEndian, Int.emod_bmod]
  apply Int.bmod_eq_of_le <;> omega

/-- An integer of a width is sent as the only bytes of that width that stand for it. -/
theorem signedOf_eq_iff {width : Nat} {n : Int} {bytes : List UInt8} (hwidth : 0 < width)
    (hlow : -2 ^ (8 * width - 1) ≤ n) (hhigh : n < 2 ^ (8 * width - 1))
    (hlength : bytes.length = width) : signedOf bytes = n ↔ bytes = bigEndian width n := by
  have hsigned := signedOf_bigEndian hwidth hlow hhigh
  constructor
  · intro h
    apply signedOf_inj
    · rw [hlength, length_bigEndian]
    · rw [h, hsigned]
  · rintro rfl
    exact hsigned

end BoundSql.Parameter
