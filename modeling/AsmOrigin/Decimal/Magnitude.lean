/-!
Floats as exact numbers: the magnitude of a finite float is a natural number times a power of two.
-/

namespace AsmOrigin.Decimal

/-- The value `significand · 2 ^ exponent`. -/
structure Magnitude where
  significand : Nat
  exponent : Int
  /-- The neighbour below is half as far away as the neighbour above. -/
  narrowBelow : Bool
  deriving DecidableEq

/-- Magnitude of a finite float; its sign is left out. -/
def Magnitude.ofFloat (x : Float) : Magnitude :=
  let bits := x.toBits.toNat
  let fraction : Nat := bits % Nat.pow 2 52
  let biased : Nat := bits / Nat.pow 2 52 % Nat.pow 2 11
  if biased = 0 then ⟨fraction, -1074, false⟩
  else ⟨Nat.pow 2 52 + fraction, (biased : Int) - 1075, fraction == 0 && biased != 1⟩

/-- The sign bit is set: true also of the negative zero. -/
def isNegative (x : Float) : Bool := x.toBits.toNat / Nat.pow 2 63 == 1

/-- The magnitude measured in units of `10 ^ scale`: the quotient of the two numbers. -/
def Magnitude.over (m : Magnitude) (scale : Int) : Nat × Nat :=
  (m.significand * Nat.pow 2 m.exponent.toNat * Nat.pow 10 (-scale).toNat,
    Nat.pow 2 (-m.exponent).toNat * Nat.pow 10 scale.toNat)

/-- The natural number nearest to a quotient; of two equally near ones the even one. -/
def nearestQuotient (num den : Nat) : Nat :=
  let q := num / den
  let twice := 2 * (num % den)
  if twice < den ∨ (twice = den ∧ q % 2 = 0) then q else q + 1

end AsmOrigin.Decimal
