import BoundSql.Number.FloatText
import BoundSql.Number.IntegerText

/-!
# Writing parameters

An encoder appends bytes to a buffer or refuses the value. The buffer it leaves behind when it
refuses is part of its result, so that a statement about a refused value can say what became of the
bytes. Numbers are written with the most significant byte first.
-/

namespace BoundSql.Parameter

open Number (Binary64 IntegerFault FloatFault pow2)

/-- Which end of a range a number is beyond. -/
inductive RangeFault where
  | tooLarge
  | tooSmall
  deriving DecidableEq

def RangeFault.message : RangeFault → String
  | .tooLarge => "number too large to fit in target type"
  | .tooSmall => "number too small to fit in target type"

/-- Why a scalar cannot be bound to a column. -/
inductive BindError where
  /-- Scalars are never bound to columns of this type. -/
  | wrongType
  | integerText (fault : IntegerFault)
  | floatText (fault : FloatFault)
  | outOfRange (fault : RangeFault)
  /-- A floating-point number that is no integer of 64 bits. -/
  | notInteger (x : Binary64)
  | notNumeric (text : String)
  deriving DecidableEq

/-- The text of an error; a refused type speaks for itself. -/
def BindError.message? : BindError → Option String
  | .wrongType => none
  | .integerText fault => some fault.message
  | .floatText fault => some fault.message
  | .outOfRange fault => some fault.message
  | .notInteger x => some ("cannot bind " ++ x.text ++ " as an integer")
  | .notNumeric text => some ("cannot bind '" ++ text ++ "' as numeric")

/-- Appends bytes to a buffer, or refuses. -/
abbrev Encoder := EStateM BindError (Array UInt8)

def emit (bytes : List UInt8) : Encoder Unit := modify fun (buffer : Array UInt8) => buffer ++ bytes

/-- The lowest `width` bytes of a number in two's complement, the most significant one first. -/
def bigEndian (width : Nat) (n : Int) : List UInt8 :=
  (List.range width).reverse.map fun i => UInt8.ofNat (n / pow2 (8 * i) % 256).toNat

def emit16 (n : Int) : Encoder Unit := emit (bigEndian 2 n)

/-- Refuse a number outside `low … high`. -/
def inRange (low high n : Int) : Encoder Int :=
  if n < low then throw (.outOfRange .tooSmall)
  else if high < n then throw (.outOfRange .tooLarge)
  else pure n

/-- Refuse a number that is no signed integer of `width` bytes. -/
def signed (width : Nat) (n : Int) : Encoder Int :=
  inRange (-pow2 (8 * width - 1)) (pow2 (8 * width - 1) - 1) n

/-- Refuse a number that is no unsigned integer of `width` bytes. -/
def unsigned (width : Nat) (n : Int) : Encoder Int :=
  inRange 0 (pow2 (8 * width) - 1) n

/-- Go on with a value that was read, or refuse for the reason why it could not be read. -/
def accept {ε α : Type} (refuse : ε → BindError) : Except ε α → Encoder α
  | .ok a => pure a
  | .error e => throw (refuse e)

/-- The bytes that an encoder appends to an empty buffer. -/
def Encoder.bytes (encoder : Encoder Unit) : Except BindError (Array UInt8) :=
  match encoder.run #[] with
  | .ok _ buffer => .ok buffer
  | .error e _ => .error e

end BoundSql.Parameter
