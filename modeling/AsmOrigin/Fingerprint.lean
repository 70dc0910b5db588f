/-!
Fingerprints: fixed-length numeric summaries of one listing.

Two fingerprints are comparable only if they have the same slots in the same order.
-/

namespace AsmOrigin

/-- The float nearest to a count; of two equally near ones the even one. -/
def ofCount (n : Nat) : Float := Float.ofModel (Float.Model.ofNat n)

structure Fingerprint where
  slots : List Float
  deriving DecidableEq

namespace Fingerprint

def size (f : Fingerprint) : Nat := f.slots.length

/-- Every slot is zero, of either sign. -/
def isZero (f : Fingerprint) : Bool := f.slots.all (· == 0.0)

end Fingerprint

/-- Sum from left to right. -/
def sumFloats (xs : List Float) : Float := xs.foldl (· + ·) 0.0

/-- Distances of the slots, squared. -/
def squaredDifferences (a b : Fingerprint) : List Float :=
  List.zipWith (fun x y => (x - y) * (x - y)) a.slots b.slots

/-- Similarity of two fingerprints: the reciprocal of one more than their distance.  Fingerprints of
different sizes are not comparable and score zero. -/
def similarity (a b : Fingerprint) : Float :=
  if a.size = b.size then 1.0 / (1.0 + (sumFloats (squaredDifferences a b)).sqrt) else 0.0

end AsmOrigin
