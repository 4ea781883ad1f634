import BoundSql.Json.Token
import BoundSql.Number.Binary64

/-!
# The value of a JSON number

A number without point and exponent is an integer if it lies between `-2⁶³` and `2⁶⁴ - 1`. Every
other number, `-0` among them, is a double-precision number, and a number too large for that has no
value.

Such a number is computed in two rounding steps. The digits before the point, up to the first that
would need more than 64 bits, and then those after it in the same way, become an integer, which is
rounded; the result is multiplied with or divided by a rounded power of ten. So a long number is not
always read as the nearest one.
-/

namespace BoundSql.Json

open Number

inductive NumberValue where
  | integer (n : Int)
  | float (x : Binary64)
  deriving DecidableEq

/-- Read digits after a prefix of value `acc`, up to the first that needs more than 64 bits: the
value of the digits read, and the digits left. -/
def readDigits64 : Nat → List Char → Nat × List Char
  | acc, [] => (acc, [])
  | acc, c :: cs =>
    let value := 10 * acc + (c.toNat - '0'.toNat)
    if value < pow2 64 then readDigits64 value cs else (acc, c :: cs)

/-- The magnitude nearest to `10 ^ n`, for the powers that double precision can hold. -/
def powerOfTen? (n : Nat) : Option Magnitude := BinaryFormat.binary64.nearest? (pow10 n) 1

/-- The magnitude nearest to `x · y`. -/
def product? (x y : Magnitude) : Option Magnitude :=
  let e := x.exponent + y.exponent
  BinaryFormat.binary64.nearest? (x.significand * y.significand * pow2 e.toNat) (pow2 (-e).toNat)

/-- The magnitude nearest to `x / y`. -/
def quotient? (x y : Magnitude) : Option Magnitude :=
  let e := x.exponent - y.exponent
  BinaryFormat.binary64.nearest? (x.significand * pow2 e.toNat) (y.significand * pow2 (-e).toNat)

/-- Scale a magnitude by a power of ten between `10 ^ -308` and `10 ^ 308`, the greatest that double
precision can hold. -/
def scaleOnce? (x : Magnitude) (e : Int) : Option Magnitude :=
  (powerOfTen? e.natAbs).bind fun p => if 0 ≤ e then product? x p else quotient? x p

/-- Scale a magnitude by a power of ten. Below `10 ^ -308` that takes several divisions; after
`divisions` of them the rest is zero. -/
def scale? (divisions : Nat) (x : Magnitude) (e : Int) : Option Magnitude :=
  if x.significand = 0 then some x
  else if 308 < e then none
  else if -308 ≤ e then scaleOnce? x e
  else match divisions with
    | 0 => some ⟨0, BinaryFormat.binary64.minExponent⟩
    | n + 1 => (scaleOnce? x (-308)).bind fun y => scale? n y (e + 308)

/-- Two divisions by `10 ^ 308` take every number of 64 bits to zero. -/
def maxDivisions : Nat := 2

namespace NumberToken

def ofNat (n : Nat) : NumberToken := ⟨false, Nat.toDigits 10 n, [], none⟩

def ofInt (n : Int) : NumberToken := ⟨n < 0, Nat.toDigits 10 n.natAbs, [], none⟩

def float? (t : NumberToken) : Option Binary64 := do
  let (whole, skipped) := readDigits64 0 t.whole
  let (significand, ignored) := readDigits64 whole t.fraction
  let places : Int := t.fraction.length - ignored.length
  let x ← BinaryFormat.binary64.nearest? significand 1
  let y ← scale? maxDivisions x (t.exponent.getD 0 + skipped.length - places)
  return .ofDatum (.finite t.negative y)

/-- The integer of a token, if it is written as one and has at most 64 bits. -/
def integer? (t : NumberToken) : Option Int :=
  if t.fraction.isEmpty && t.exponent.isNone then
    let n := digitsValue t.whole
    if t.negative then
      if 0 < n && n ≤ pow2 63 then some (-n) else none
    else
      if n < pow2 64 then some n else none
  else none

def value? (t : NumberToken) : Option NumberValue :=
  match t.integer? with
  | some n => some (.integer n)
  | none => t.float?.map .float

end NumberToken

end BoundSql.Json
