import BoundSql.Number.Digits
import BoundSql.Number.Power

/-!
# Reading integers

A 64-bit signed integer is written as digits, after at most one sign. The text is read from left to
right and the first fault met is reported, so a text that is both too long and malformed fails for
whichever of the two shows first.

    readInt64 "+007" = 7      readInt64 "-" fails with `invalidDigit`, readInt64 "" with `empty`
-/

namespace BoundSql.Number

/-- Why a text is no integer of the wanted range. -/
inductive IntegerFault where
  | empty
  | invalidDigit
  | tooLarge
  | tooSmall
  deriving DecidableEq

def IntegerFault.message : IntegerFault → String
  | .empty => "cannot parse integer from empty string"
  | .invalidDigit => "invalid digit found in string"
  | .tooLarge => "number too large to fit in target type"
  | .tooSmall => "number too small to fit in target type"

/-- Read digits after a prefix of value `acc`; a value above `limit` fails with `beyond` as soon as
it is reached. -/
def readDigits (limit : Nat) (beyond : IntegerFault) : Nat → List Char → Except IntegerFault Nat
  | acc, [] => .ok acc
  | acc, c :: cs =>
    if c.isDigit then
      let value := 10 * acc + (c.toNat - '0'.toNat)
      if value ≤ limit then readDigits limit beyond value cs else .error beyond
    else .error .invalidDigit

/-- Read an integer in the range `-2⁶³ … 2⁶³ - 1`. -/
def readInt64 (cs : List Char) : Except IntegerFault Int :=
  match cs with
  | [] => .error .empty
  | ['+'] | ['-'] => .error .invalidDigit
  | '-' :: ds => do return -((← readDigits (pow2 63) .tooSmall 0 ds : Nat) : Int)
  | '+' :: ds => do return ((← readDigits (pow2 63 - 1) .tooLarge 0 ds : Nat) : Int)
  | ds => do return ((← readDigits (pow2 63 - 1) .tooLarge 0 ds : Nat) : Int)

end BoundSql.Number
