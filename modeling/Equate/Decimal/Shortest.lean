import Equate.Decimal.Scientific

/-!
# Shortest decimals

The decimal number with the fewest digits that reads back as a given double. The reals that round
to a double form an interval. Grids of one, two, … up to seventeen significant digits are tried in
turn, and the first one with a point in the interval gives the answer, by one of the two grid
points beside the double.
-/

namespace Equate.Decimal

/-- The reals that round to a double, around the double itself, over one denominator. -/
structure Interval where
  low : Nat
  mid : Nat
  high : Nat
  den : Nat
  closed : Bool

/-- Halfway to the neighbours of `mantissa · 2 ^ exponent`. The lower neighbour of a power of two
is only half as far. The ends round to the double itself when its mantissa is even. -/
def Interval.around (mantissa : Nat) (exponent : Int) : Interval :=
  let below := if mantissa == Nat.pow 2 52 && exponent > -1074 then 1 else 2
  let unit := Nat.pow 2 (exponent - 2).toNat
  { low := (4 * mantissa - below) * unit
    mid := 4 * mantissa * unit
    high := (4 * mantissa + 2) * unit
    den := Nat.pow 2 (2 - exponent).toNat
    closed := mantissa % 2 == 0 }

def Interval.inUnits (i : Interval) (unit : Int) : Interval :=
  let up := Nat.pow 10 (-unit).toNat
  { i with low := i.low * up, mid := i.mid * up, high := i.high * up
           den := i.den * Nat.pow 10 unit.toNat }

def Interval.holds (i : Interval) (n : Nat) : Bool :=
  let x := n * i.den
  if i.closed then i.low ≤ x && x ≤ i.high else i.low < x && x < i.high

/-- The whole number in the interval that is nearest to its middle; of two equally near the even
one. -/
def Interval.nearest? (i : Interval) : Option Nat :=
  let n := i.mid / i.den
  match i.holds n, i.holds (n + 1) with
  | true, true => some (Ratio.round ⟨i.mid, i.den⟩)
  | true, false => some n
  | false, true => some (n + 1)
  | false, false => none

def shortest (mantissa : Nat) (exponent : Int) : Scientific :=
  if mantissa == 0 then .zero
  else
    let top := (Ratio.ofBinary mantissa exponent).magnitude
    let interval := Interval.around mantissa exponent
    let found := (List.range 17).findSome? fun (more : Nat) =>
      let unit := top - (more : Int)
      ((interval.inUnits unit).nearest?).map fun n => Scientific.ofUnits n unit
    found.getD .zero

end Equate.Decimal
