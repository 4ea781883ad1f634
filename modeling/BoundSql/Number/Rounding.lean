import BoundSql.Number.Power

/-!
# Rounding to a binary format

Binary floating-point formats in the sense of IEEE 754: how the bits of a word are read, and which
word an exact positive rational is rounded to. All arithmetic is on natural numbers and integers,
so nothing is lost before the one rounding step, which goes to the nearest representable number
and, halfway between two, to the one with the even significand.

The two formats in use are `binary32` and `binary64`.
-/

namespace BoundSql.Number

/-- A binary interchange format: the digits of a significand, leading one included, and the width
of the exponent field. -/
structure BinaryFormat where
  precision : Nat
  exponentWidth : Nat

/-- The magnitude `significand · 2 ^ exponent`. -/
structure Magnitude where
  significand : Nat
  exponent : Int
  deriving DecidableEq

inductive Datum where
  | nan (negative : Bool)
  | infinity (negative : Bool)
  | finite (negative : Bool) (magnitude : Magnitude)
  deriving DecidableEq

/-! ### Exact division -/

/-- `num / den` rounded to the nearest natural number, a half to the even neighbour. -/
def roundHalfEven (num den : Nat) : Nat :=
  let quotient := num / den
  let remainder := num % den
  if 2 * remainder < den then quotient
  else if den < 2 * remainder then quotient + 1
  else quotient + quotient % 2

/-- The integer part of the binary logarithm of the positive fraction `num / den`. -/
def floorLog2 (num den : Nat) : Int :=
  let k : Int := (num.log2 : Int) - (den.log2 : Int)
  if num * pow2 (-k).toNat < den * pow2 k.toNat then k - 1 else k

namespace BinaryFormat

/-- Single precision: 24 binary digits, 8 bits of exponent. -/
def binary32 : BinaryFormat := ⟨24, 8⟩

/-- Double precision: 53 binary digits, 11 bits of exponent. -/
def binary64 : BinaryFormat := ⟨53, 11⟩

/-- The exponent of the last binary place of the smallest numbers. -/
def minExponent (f : BinaryFormat) : Int :=
  2 - pow2 (f.exponentWidth - 1) - (f.precision - 1 : Nat)

/-- The exponent of the last binary place of the largest numbers. -/
def maxExponent (f : BinaryFormat) : Int :=
  pow2 (f.exponentWidth - 1) - (f.precision : Nat)

/-- The least significand with a leading one. -/
def leadingOne (f : BinaryFormat) : Nat := pow2 (f.precision - 1)

/-- The word of positive infinity: an exponent field of ones before a zero fraction. -/
def infinityWord (f : BinaryFormat) : Nat := (pow2 f.exponentWidth - 1) * f.leadingOne

/-- The weight of the sign bit. -/
def signWeight (f : BinaryFormat) : Nat := pow2 (f.exponentWidth + f.precision - 1)

/-- The representable magnitude nearest to `num / den`; `none` if that lies beyond the largest. -/
def nearest? (f : BinaryFormat) (num den : Nat) : Option Magnitude :=
  if num = 0 then some ⟨0, f.minExponent⟩
  else
    let q := max f.minExponent (floorLog2 num den - (f.precision - 1 : Nat))
    let m := roundHalfEven (num * pow2 (-q).toNat) (den * pow2 q.toNat)
    let x : Magnitude := if m = pow2 f.precision then ⟨f.leadingOne, q + 1⟩ else ⟨m, q⟩
    if x.exponent ≤ f.maxExponent then some x else none

/-- The datum nearest to `± num / den`; an infinity beyond the largest magnitude. -/
def round (f : BinaryFormat) (negative : Bool) (num den : Nat) : Datum :=
  match f.nearest? num den with
  | some x => .finite negative x
  | none => .infinity negative

/-- The datum nearest to `± significand · 2 ^ exponent`. -/
def roundMagnitude (f : BinaryFormat) (negative : Bool) (x : Magnitude) : Datum :=
  f.round negative (x.significand * pow2 x.exponent.toNat) (pow2 (-x.exponent).toNat)

/-- The datum nearest to `± significand · 10 ^ exponent`.

Far beyond the largest magnitude, or far below the smallest, the power of ten need not be
computed: a positive significand with an exponent above the last decimal place of every infinity
overflows, and one that leaves the product below `2 ^ minExponent / 2` vanishes. -/
def roundDecimal (f : BinaryFormat) (negative : Bool) (significand : Nat) (exponent : Int) :
    Datum :=
  if significand = 0 then .finite negative ⟨0, f.minExponent⟩
  else if f.maxExponent + (f.precision : Nat) < exponent then .infinity negative
  else if exponent + (significand.log2 + 1 : Nat) < f.minExponent - 1 then
    .finite negative ⟨0, f.minExponent⟩
  else
    f.round negative (significand * pow10 exponent.toNat) (pow10 (-exponent).toNat)

/-- The word of a representable magnitude. -/
def packMagnitude (f : BinaryFormat) (x : Magnitude) : Nat :=
  (x.exponent - f.minExponent).toNat * f.leadingOne + x.significand

/-- The word of a datum; NaN is the quiet one without payload. -/
def encode (f : BinaryFormat) : Datum → Nat
  | .nan s => (if s then f.signWeight else 0) + f.infinityWord + f.leadingOne / 2
  | .infinity s => (if s then f.signWeight else 0) + f.infinityWord
  | .finite s x => (if s then f.signWeight else 0) + f.packMagnitude x

/-- The magnitude of a word below infinity: without a leading one if the exponent field is zero. -/
def unpackMagnitude (f : BinaryFormat) (word : Nat) : Magnitude :=
  let field := word / f.leadingOne
  let fraction := word % f.leadingOne
  if field = 0 then ⟨fraction, f.minExponent⟩
  else ⟨f.leadingOne + fraction, f.minExponent + (field - 1 : Nat)⟩

def decode (f : BinaryFormat) (word : Nat) : Datum :=
  let negative := f.signWeight ≤ word
  let magnitude := word % f.signWeight
  if magnitude < f.infinityWord then .finite negative (f.unpackMagnitude magnitude)
  else if magnitude = f.infinityWord then .infinity negative
  else .nan negative

end BinaryFormat

end BoundSql.Number
