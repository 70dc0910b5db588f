import AsmOrigin.Decimal.Magnitude

/-!
The shortest decimal of a float.

The reals that round to a float form an interval, from halfway to the neighbour below to halfway to the
neighbour above, whose ends belong to it exactly if the significand is even.  The grids of multiples of
`10 ^ scale` are tried from coarse to fine; the first one with a point in the interval gives the fewest
digits, and of its points in the interval the one nearest to the float is taken.
-/

namespace AsmOrigin

/-- The value `digits · 10 ^ scale`. -/
structure Decimal where
  digits : Nat
  scale : Int
  deriving DecidableEq

namespace Decimal

/-- The rounding interval of a magnitude in quarters of its last binary place, over a common unit in
which `10 ^ scale` measures `step`. -/
structure Interval where
  low : Nat
  value : Nat
  high : Nat
  step : Nat
  closed : Bool

def Magnitude.interval (m : Magnitude) (scale : Int) : Interval :=
  let quarters (n : Nat) : Nat := n * Nat.pow 2 m.exponent.toNat * Nat.pow 10 (-scale).toNat
  let four := 4 * m.significand
  { low := quarters (if m.narrowBelow then four - 1 else four - 2)
    value := quarters four
    high := quarters (four + 2)
    step := 4 * Nat.pow 2 (-m.exponent).toNat * Nat.pow 10 scale.toNat
    closed := m.significand % 2 == 0 }

/-- The multiple of the step lies in the interval. -/
def Interval.contains (i : Interval) (n : Nat) : Bool :=
  let p := n * i.step
  if i.closed then i.low ≤ p && p ≤ i.high else i.low < p && p < i.high

/-- The multiple of the step in the interval that is nearest to the value; of two equally near ones the
even one.  Only the two neighbours of the value can be it. -/
def Interval.nearest? (i : Interval) : Option Nat :=
  let below := i.value / i.step
  match i.contains below, i.contains (below + 1) with
  | true, true => some (nearestQuotient i.value i.step)
  | true, false => some below
  | false, true => some (below + 1)
  | false, false => none

/-- First grid from `scale` downwards, at most `steps` of them, that has a point in the interval. -/
def Magnitude.search (m : Magnitude) : Nat → Int → Option Decimal
  | 0, _ => none
  | steps + 1, scale =>
    match (m.interval scale).nearest? with
    | some n => some ⟨n, scale⟩
    | none => m.search steps (scale - 1)

/-- The magnitude written out in full. -/
def Magnitude.exact (m : Magnitude) : Decimal :=
  if 0 ≤ m.exponent then ⟨m.significand * Nat.pow 2 m.exponent.toNat, 0⟩
  else ⟨m.significand * Nat.pow 5 (-m.exponent).toNat, m.exponent⟩

/-- A power of ten above the magnitude, and not far above it. -/
def Magnitude.scaleAbove (m : Magnitude) : Int :=
  ((m.significand.log2 : Int) + 1 + m.exponent) * 30103 / 100000 + 1

/-- Seventeen digits always suffice, so twenty grids are enough. -/
def Magnitude.shortest (m : Magnitude) : Decimal :=
  if m.significand = 0 then ⟨0, 0⟩
  else (m.search 20 m.scaleAbove).getD m.exact

end Decimal

end AsmOrigin
