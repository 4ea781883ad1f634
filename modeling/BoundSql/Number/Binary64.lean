import BoundSql.Number.Shortest

/-!
# Double-precision numbers

A double-precision number is its 64-bit word. Equality of *numbers* is IEEE equality: NaN is unequal
to itself and the two zeros are equal; equality of words is ordinary equality of the structure.

    text 0x3FB999999999999A = "0.1"      text 0x8000000000000000 = "-0"      toInteger? 2.5 = none
-/

namespace BoundSql.Number

/-- A number in double precision, as its word. -/
structure Binary64 where
  word : UInt64
  deriving DecidableEq

namespace Binary64

def datum (x : Binary64) : Datum := BinaryFormat.binary64.decode x.word.toNat

def ofDatum (d : Datum) : Binary64 := ⟨UInt64.ofNat (BinaryFormat.binary64.encode d)⟩

def ieeeEq (x y : Binary64) : Bool :=
  match x.datum, y.datum with
  | .nan _, _ => false
  | _, .nan _ => false
  | .finite _ ⟨0, _⟩, .finite _ ⟨0, _⟩ => true
  | _, _ => x.word == y.word

def ofInt (n : Int) : Binary64 := ofDatum (BinaryFormat.binary64.round (n < 0) n.natAbs 1)

/-- The number nearest to `± significand · 10 ^ exponent`. -/
def ofDecimal (negative : Bool) (significand : Nat) (exponent : Int) : Binary64 :=
  ofDatum (BinaryFormat.binary64.roundDecimal negative significand exponent)

/-- Round a datum of another precision to one of the format; NaN and the infinities keep their
kind and sign. -/
def convert (f : BinaryFormat) : Datum → Datum
  | .finite s x => f.roundMagnitude s x
  | d => d

/-- The number of a single-precision word; no number is lost. -/
def ofBinary32 (word : UInt32) : Binary64 :=
  ofDatum (convert .binary64 (BinaryFormat.binary32.decode word.toNat))

/-- The single-precision word nearest to the number. -/
def toBinary32 (x : Binary64) : UInt32 :=
  UInt32.ofNat (BinaryFormat.binary32.encode (convert .binary32 x.datum))

/-- The exact value, if it is an integer. -/
def toInteger? (x : Binary64) : Option Int :=
  match x.datum with
  | .finite s ⟨m, q⟩ =>
    let unit := pow2 (-q).toNat
    if m % unit = 0 then
      let n : Int := (m / unit * pow2 q.toNat : Nat)
      some (if s then -n else n)
    else none
  | _ => none

/-- The shortest decimal that reads back as the number, without an exponent: `5`, `-0`, `0.1`,
`1000000000000000000000`; and `NaN`, `inf`, `-inf`. -/
def text (x : Binary64) : String :=
  match x.datum with
  | .nan _ => "NaN"
  | .infinity s => if s then "-inf" else "inf"
  | .finite s m =>
    let digits :=
      if m.significand = 0 then "0"
      else
        let d := BinaryFormat.binary64.shortest m
        String.ofList (positional (naturalText d.coefficient).toList d.exponent)
    if s then "-" ++ digits else digits

end Binary64

end BoundSql.Number
