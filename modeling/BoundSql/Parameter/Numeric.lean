import BoundSql.Parameter.Encoder

/-!
# The wire format of `NUMERIC`

A decimal number of any length is sent as four fields of 16 bits — how many groups follow, the
weight of the first group, the sign, and how many digits were written after the point — and the
groups, which are digits in base 10000. The number is the sum of the products
`group · 10000 ^ (weight - position)`.

Groups of zero at either end are not sent. Zero has no groups, weight zero and the positive sign;
the digits after its point still count. NaN has a sign of its own and is otherwise zero.

    12345   is  2 groups, weight  1: 1, 2345
    -0.0001 is  1 group,  weight -1: 1, after four digits of fraction
-/

namespace BoundSql.Parameter

open Number

/-- A decimal number as it is written: digits before and after the point. -/
structure DecimalText where
  negative : Bool
  whole : List Char
  fraction : List Char
  deriving DecidableEq

namespace DecimalText

/-- Read an optional sign, digits, and possibly a point with digits; one digit at least. -/
def parse? (cs : List Char) : Option DecimalText :=
  let (negative, rest) := splitSign cs
  let whole := rest.takeWhile (· != '.')
  let fraction := (rest.dropWhile (· != '.')).drop 1
  if isDigits whole && isDigits fraction && !(whole ++ fraction).isEmpty then
    some ⟨negative, whole, fraction⟩
  else none

end DecimalText

/-- The zeros that fill `n` digits up to whole groups of four. -/
def padding (n : Nat) : List Char := List.replicate ((4 - n % 4) % 4) '0'

/-- The numbers that groups of four digits write. -/
def groupValues : List Char → List Nat
  | a :: b :: c :: d :: cs => digitsValue [a, b, c, d] :: groupValues cs
  | _ => []

/-- A list without the zeros at its end. -/
def dropTrailingZeros (groups : List Nat) : List Nat :=
  (groups.reverse.dropWhile (· == 0)).reverse

/-- A finite number in base 10000. -/
structure NumericForm where
  negative : Bool
  /-- The power of 10000 that the first group counts. -/
  weight : Int
  /-- How many digits were written after the point. -/
  scale : Nat
  groups : List Nat
  deriving DecidableEq

namespace NumericForm

/-- The digits before the point, filled up on the left, and those after it, filled up on the right:
the point falls between two groups. -/
def alignedDigits (whole fraction : List Char) : List Char :=
  padding whole.length ++ whole ++ (fraction ++ padding fraction.length)

def ofDecimal (d : DecimalText) : NumericForm :=
  let whole := d.whole.dropWhile (· == '0')
  let groups := groupValues (alignedDigits whole d.fraction)
  let first := groups.dropWhile (· == 0)
  let sent := dropTrailingZeros first
  if sent.isEmpty then ⟨false, 0, d.fraction.length, []⟩
  else
    let weight : Int := ((whole.length + 3) / 4 : Nat) - 1 - (groups.length - first.length : Nat)
    ⟨d.negative, weight, d.fraction.length, sent⟩

end NumericForm

def signField (negative : Bool) : Int := if negative then 0x4000 else 0

def nanField : Int := 0xC000

/-- Append a finite number. Its fields are checked before anything is written. -/
def writeForm (form : NumericForm) : Encoder Unit := do
  let scale ← unsigned 2 form.scale
  let weight ← signed 2 form.weight
  let count ← signed 2 form.groups.length
  emit16 count
  emit16 weight
  emit16 (signField form.negative)
  emit16 scale
  form.groups.forM fun group => emit16 group

/-- The word for NaN, in any case. -/
def isNaNWord (cs : List Char) : Bool := cs.map Char.toLower == "nan".toList

/-- Append the number that a text writes. -/
def writeNumeric (cs : List Char) : Encoder Unit :=
  if isNaNWord cs then do
    emit16 0
    emit16 0
    emit16 nanField
    emit16 0
  else
    match DecimalText.parse? cs with
    | some d => writeForm (.ofDecimal d)
    | none => throw (.notNumeric (String.ofList cs))

end BoundSql.Parameter
