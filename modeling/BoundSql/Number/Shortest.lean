import BoundSql.Number.Digits
import BoundSql.Number.Rounding

/-!
# The shortest decimal of a binary number

Each representable number is the nearest one to an interval of reals. Its shortest decimal is the
one with the fewest digits inside that interval: the coarsest grid of multiples of a power of ten
that has a point there is found, and of the two neighbours of the number on that grid the nearer
one is taken, the upper one from exactly halfway.

The ends of the interval round to the number only if its significand is even, because a tie goes
to the even neighbour. Below a power of two the neighbours are half as far apart as above it, so
there the lower half of the interval is half as long.
-/

namespace BoundSql.Number

/-- A number `coefficient · 10 ^ exponent`. -/
structure Decimal where
  coefficient : Nat
  exponent : Int
  deriving DecidableEq

/-- The reals that round to a positive magnitude: `low`, `mid` (the magnitude itself) and `high`,
all in units of `2 ^ exponent`, and whether the two ends belong to them. -/
structure RoundingInterval where
  low : Nat
  mid : Nat
  high : Nat
  exponent : Int
  closed : Bool

/-- The reals that round to the positive magnitude `x`. -/
def BinaryFormat.interval (f : BinaryFormat) (x : Magnitude) : RoundingInterval where
  low :=
    if x.significand = f.leadingOne ∧ f.minExponent < x.exponent then 4 * x.significand - 1
    else 4 * x.significand - 2
  mid := 4 * x.significand
  high := 4 * x.significand + 2
  exponent := x.exponent - 2
  closed := x.significand % 2 = 0

namespace RoundingInterval

/-- The point of the interval on the grid of multiples of `10 ^ e` that is nearest to the middle,
if one of the middle's two neighbours on the grid lies in the interval.

Both sides of every comparison are multiplied by the same powers of two and ten: `ten` is the
distance of two grid points, and `two` the unit of the interval, on a common scale. -/
def onGrid? (r : RoundingInterval) (e : Int) : Option Decimal :=
  let ten := pow10 e.toNat * pow2 (-r.exponent).toNat
  let two := pow2 r.exponent.toNat * pow10 (-e).toNat
  let below := r.mid * two / ten
  let inside (c : Nat) : Bool :=
    if r.closed then r.low * two ≤ c * ten && c * ten ≤ r.high * two
    else r.low * two < c * ten && c * ten < r.high * two
  match inside below, inside (below + 1) with
  | true, true => some ⟨if 2 * (r.mid * two - below * ten) < ten then below else below + 1, e⟩
  | true, false => some ⟨below, e⟩
  | false, true => some ⟨below + 1, e⟩
  | false, false => none

/-- An exponent of ten whose power exceeds the interval, by at most a few powers of ten. -/
def startExponent (r : RoundingInterval) : Int :=
  (r.exponent + (r.high.log2 : Int) + 1) * 30103 / 100000 + 2

/-- The point of the interval on the coarsest grid that has one. Seventeen significant digits tell
all double-precision numbers apart, so the search ends well before the last grid tried. -/
def coarsest (r : RoundingInterval) : Decimal :=
  let start := r.startExponent
  ((List.range 24).findSome? fun (i : Nat) => r.onGrid? (start - i)).getD ⟨r.mid, 0⟩

end RoundingInterval

/-- The shortest decimal that reads back as the positive magnitude `x`. -/
def BinaryFormat.shortest (f : BinaryFormat) (x : Magnitude) : Decimal := (f.interval x).coarsest

end BoundSql.Number
