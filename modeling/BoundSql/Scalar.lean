import BoundSql.Number.Binary64

/-!
# Scalars

The single values that a statement can bind: an integer, a floating-point number or a text.
-/

namespace BoundSql

open Number (Binary64)

inductive Scalar where
  | int (n : Int64)
  | float (x : Binary64)
  | text (s : String)
  deriving DecidableEq

namespace Scalar

/-- A natural number of 64 bits: an integer if it fits, otherwise the text of its digits, so that no
number is rounded. -/
def ofUInt64 (n : UInt64) : Scalar :=
  if n.toNat < Number.pow2 63 then .int (Int64.ofNat n.toNat)
  else .text (Number.naturalText n.toNat)

/-- A scalar's plain text, without quotes. -/
def plain : Scalar → String
  | .int n => Number.integerText n.toInt
  | .float x => x.text
  | .text s => s

/-- Equality of values: numbers of one kind are compared as numbers, so NaN is unequal to itself and
the zeros are equal; an integer never equals a floating-point number. -/
def valueEq : Scalar → Scalar → Bool
  | .int m, .int n => m == n
  | .float x, .float y => x.ieeeEq y
  | .text s, .text t => s == t
  | _, _ => false

/-- The scalar as literal text: integers bare, everything else in single quotes. With `escape`, a
quote inside a text is written twice; without it the text is taken as it is. -/
def literal (escape : Bool) : Scalar → String
  | .int n => Number.integerText n.toInt
  | .float x => "'" ++ x.text ++ "'"
  | .text s => "'" ++ (if escape then escapeQuotes s else s) ++ "'"
where
  /-- Every single quote twice, everything else once. -/
  escapeQuotes (s : String) : String :=
    String.ofList (s.toList.flatMap fun c => if c = '\'' then ['\'', '\''] else [c])

end Scalar

end BoundSql
