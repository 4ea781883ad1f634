import BoundSql.Parameter.Numeric
import BoundSql.Scalar
import BoundSql.Text.Blank

/-!
# Binding scalars to columns

A scalar converts itself to the type of the column it is bound to: integers are narrowed with a
range check, texts are read as numbers, floating-point numbers without a fraction become integers,
and any scalar can be sent as `NUMERIC` or as text.
-/

namespace BoundSql

open Number (Binary64)
open Parameter

inductive ColumnType where
  | int2
  | int4
  | int8
  | float4
  | float8
  | numeric
  | text
  | varchar
  | bpchar
  | name
  | unknown
  | other (name : String)
  deriving DecidableEq

/-- Scalars can be bound to columns of the type. -/
def ColumnType.isAccepted : ColumnType → Bool
  | .other _ => false
  | _ => true

namespace Scalar

/-- The 64-bit integer that a scalar denotes. -/
def toInteger : Scalar → Encoder Int
  | .int n => pure n.toInt
  | .float x =>
    match x.toInteger? with
    | some n => if -Number.pow2 63 ≤ n ∧ n < Number.pow2 63 then pure n else throw (.notInteger x)
    | none => throw (.notInteger x)
  | .text s => accept .integerText (Number.readInt64 (Text.trimChars s.toList))

/-- The double-precision number that a scalar denotes. -/
def toBinary64 : Scalar → Encoder Binary64
  | .int n => pure (.ofInt n.toInt)
  | .float x => pure x
  | .text s => accept .floatText (Number.readBinary64 (Text.trimChars s.toList))

def writeInteger (width : Nat) (s : Scalar) : Encoder Unit := do
  let n ← signed width (← s.toInteger)
  emit (bigEndian width n)

def writeText (s : Scalar) : Encoder Unit := emit s.plain.toUTF8.data.toList

/-- Append a scalar in the wire format of a column type; every type without a format of its own
takes the plain text. -/
def writeAs (type : ColumnType) (s : Scalar) : Encoder Unit :=
  match type with
  | .int2 => s.writeInteger 2
  | .int4 => s.writeInteger 4
  | .int8 => s.writeInteger 8
  | .float4 => do emit (bigEndian 4 (← s.toBinary64).toBinary32.toNat)
  | .float8 => do emit (bigEndian 8 (← s.toBinary64).word.toNat)
  | .numeric => writeNumeric (Text.trimChars s.plain.toList)
  | _ => s.writeText

/-- Bind a scalar to a column, if its type takes scalars at all. -/
def bindTo (type : ColumnType) (s : Scalar) : Encoder Unit :=
  if type.isAccepted then s.writeAs type else throw .wrongType

end Scalar

end BoundSql
