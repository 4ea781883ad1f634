import BoundSql.Number.Binary64

/-!
# Reading floating-point numbers

A double-precision number is written as `inf`, `infinity` or `nan` in any case, or as digits with at
most one point before, between or after them and possibly an exponent; either after at most one
sign. The number read is the one nearest to the decimal written.

    readBinary64 ".5e1" = 5    readBinary64 "1e400" = inf    readBinary64 "1e" fails with `invalid`
-/

namespace BoundSql.Number

/-- Why a text is no floating-point number. -/
inductive FloatFault where
  | empty
  | invalid
  deriving DecidableEq

def FloatFault.message : FloatFault → String
  | .empty => "cannot parse float from empty string"
  | .invalid => "invalid float literal"

/-- The value of an exponent's digits. Exponents of that size are out of every range, so digits
after the value has reached `65536` no longer count. -/
def exponentValue (ds : List Char) : Nat :=
  ds.foldl (fun n c => if n < 65536 then 10 * n + (c.toNat - '0'.toNat) else n) 0

/-- An exponent, if the text is one: `e` or `E`, an optional sign and at least one digit. No text at
all is the exponent zero. -/
def readExponent : List Char → Option Int
  | [] => some 0
  | c :: cs =>
    let (negative, ds) := splitSign cs
    if (c = 'e' || c = 'E') && isDigits ds && !ds.isEmpty then
      let n : Int := exponentValue ds
      some (if negative then -n else n)
    else none

/-- The decimal that an unsigned text writes, as digits with a power of ten to scale them by. -/
def readDecimal (cs : List Char) : Option (List Char × Int) :=
  let whole := cs.takeWhile Char.isDigit
  let rest := cs.dropWhile Char.isDigit
  let (fraction, rest) := match rest with
    | '.' :: rest => (rest.takeWhile Char.isDigit, rest.dropWhile Char.isDigit)
    | rest => ([], rest)
  let digits := whole ++ fraction
  if digits.isEmpty then none
  else (readExponent rest).map fun e => (digits, e - fraction.length)

/-- The number that an unsigned text writes, negated if `negative`. -/
def readMagnitude (negative : Bool) (cs : List Char) : Except FloatFault Binary64 :=
  match readDecimal cs with
  | some (digits, e) => .ok (Binary64.ofDecimal negative (digitsValue digits) e)
  | none =>
    let word := cs.map Char.toLower
    if word = "inf".toList || word = "infinity".toList then
      .ok (Binary64.ofDatum (.infinity negative))
    else if word = "nan".toList then .ok (Binary64.ofDatum (.nan negative))
    else .error .invalid

def readBinary64 (cs : List Char) : Except FloatFault Binary64 :=
  if cs.isEmpty then .error .empty
  else
    let (negative, cs) := splitSign cs
    readMagnitude negative cs

end BoundSql.Number
