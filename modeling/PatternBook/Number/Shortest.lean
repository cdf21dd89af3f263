import PatternBook.Number.Binary64

/-!
# The shortest decimal of a binary number

A finite number stands for the interval of reals that round to it, whose ends belong to it if the
mantissa is even. Of all decimal grids, from coarse to fine, the first that has a point in the
interval gives the fewest digits; of the number's two neighbours on that grid the nearer is taken,
and of two equally near the even one.
-/

namespace PatternBook.Binary64

/-- A number and the ends of its interval, over one denominator. -/
structure Neighbourhood where
  low : Nat
  value : Nat
  high : Nat
  den : Nat
  closed : Bool

/-- Below a power of two the neighbours are twice as close as above it. -/
def neighbourhood (mantissa : Nat) (exponent : Int) : Neighbourhood :=
  let closer := mantissa == Nat.pow 2 52 && decide (leastExponent < exponent)
  let e := exponent - 2
  let up := Nat.pow 2 e.toNat
  { low := (4 * mantissa - (if closer then 1 else 2)) * up
    value := 4 * mantissa * up
    high := (4 * mantissa + 2) * up
    den := Nat.pow 2 (-e).toNat
    closed := mantissa % 2 == 0 }

namespace Neighbourhood

def scale (n : Neighbourhood) (k : Nat) : Neighbourhood :=
  { n with low := n.low * k, value := n.value * k, high := n.high * k }

def contains (n : Neighbourhood) (point : Nat) : Bool :=
  if n.closed then decide (n.low ≤ point) && decide (point ≤ n.high)
  else decide (n.low < point) && decide (point < n.high)

/-- The point of the grid of multiples of a unit that is to be written, as a multiple. -/
def onGrid? (n : Neighbourhood) (unit : Nat) : Option Nat :=
  let below := n.value / unit
  let hitBelow := n.contains (below * unit)
  let hitAbove := n.contains ((below + 1) * unit)
  if hitBelow && hitAbove then
    let rest := n.value % unit
    if 2 * rest < unit then some below
    else if unit < 2 * rest then some (below + 1)
    else some (below + below % 2)
  else if hitBelow then some below
  else if hitAbove then some (below + 1)
  else none

/-- Tries the grids of the powers of ten downwards from `power`. -/
def search (n : Neighbourhood) : Nat → Int → Option (Nat × Int)
  | 0, _ => none
  | steps + 1, power =>
    let point? :=
      if 0 ≤ power then n.onGrid? (Nat.pow 10 power.toNat * n.den)
      else (n.scale (Nat.pow 10 (-power).toNat)).onGrid? n.den
    match point? with
    | some point => some (point, power)
    | none => search n steps (power - 1)

end Neighbourhood

/-- Digits and power of ten of the shortest decimal that rounds to a positive number. The grids
from `10 ^ 309` down to `10 ^ (-342)` reach every finite number. -/
def shortest (mantissa : Nat) (exponent : Int) : Nat × Int :=
  ((neighbourhood mantissa exponent).search 652 309).getD (mantissa, 0)

end PatternBook.Binary64
