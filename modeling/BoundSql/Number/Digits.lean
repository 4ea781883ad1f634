/-!
# Decimal digits

Texts of the ten digits `0`–`9`, and the numbers they write. Digits of other scripts are not digits
here.

The value of a digit text is `Nat.ofDigitChars 10`, whose laws the standard library has; what is
added are the positional texts of decimal fractions.

    integerText (-42) = "-42"      positional "125" (-2) = "1.25"      positional "5" (-3) = "0.005"
-/

namespace BoundSql.Number

/-- Every character is one of `0`–`9`. -/
def isDigits (cs : List Char) : Bool := cs.all Char.isDigit

/-- The number that digits write. -/
def digitsValue (cs : List Char) : Nat := Nat.ofDigitChars 10 cs 0

/-- The digits of a natural number, without leading zeros; `0` for zero. -/
def naturalText (n : Nat) : String := Nat.repr n

/-- The digits of an integer, after a minus sign if it is negative. -/
def integerText (n : Int) : String :=
  if n < 0 then "-" ++ naturalText n.natAbs else naturalText n.natAbs

/-- The number `digits · 10 ^ exponent` written without an exponent: zeros on the right of an
integer, a point inside the digits, or zeros between the point and the digits. -/
def positional (digits : List Char) (exponent : Int) : List Char :=
  if 0 ≤ exponent then
    digits ++ List.replicate exponent.toNat '0'
  else
    let places := (-exponent).toNat
    if places < digits.length then
      digits.take (digits.length - places) ++ '.' :: digits.drop (digits.length - places)
    else
      '0' :: '.' :: (List.replicate (places - digits.length) '0' ++ digits)

/-- A leading plus or minus sign: whether it is a minus, and what follows it. -/
def splitSign : List Char → Bool × List Char
  | '-' :: cs => (true, cs)
  | '+' :: cs => (false, cs)
  | cs => (false, cs)

/-! ### Laws -/

theorem digitsValue_toDigits (n : Nat) : digitsValue (Nat.toDigits 10 n) = n := by
  simp [digitsValue, Nat.ofDigitChars_toDigits]

theorem toList_naturalText (n : Nat) : (naturalText n).toList = Nat.toDigits 10 n := by
  simp [naturalText, Nat.repr_eq_ofList_toDigits]

theorem isDigits_append (cs ds : List Char) :
    isDigits (cs ++ ds) = (isDigits cs && isDigits ds) := by
  simp [isDigits]

end BoundSql.Number
