import AsmOrigin.Decimal.Shortest

/-!
How floats are written in tables and as percentages.

`plain` is positional and has no decimals where there are none; `percent` is the hundredfold value with two
decimals, rounded from the exact value of the float.
-/

namespace AsmOrigin.Decimal

def digitsOf (n : Nat) : List Char := Nat.toDigits 10 n

def zeros (n : Nat) : List Char := List.replicate n '0'

/-- Integer part and decimals. -/
def positional (d : Decimal) : List Char × List Char :=
  let ds := digitsOf d.digits
  let places := (-d.scale).toNat
  if 0 ≤ d.scale then (ds ++ zeros d.scale.toNat, [])
  else if places < ds.length then (ds.take (ds.length - places), ds.drop (ds.length - places))
  else (['0'], zeros (places - ds.length) ++ ds)

def plainOfDecimal (d : Decimal) : List Char :=
  let (whole, decimals) := positional d
  if decimals.isEmpty then whole else whole ++ '.' :: decimals

/-- Two decimals of a number of hundredths. -/
def hundredths (n : Nat) : List Char :=
  let (whole, decimals) := positional ⟨n, -2⟩
  whole ++ '.' :: decimals

def signed (x : Float) (text : List Char) : List Char := if isNegative x then '-' :: text else text

/-- What is said of a float that is not finite. -/
def nonFinite (x : Float) : List Char :=
  if x.isNaN then "NaN".toList else signed x "inf".toList

/-- A float in a table. -/
def plain (x : Float) : List Char :=
  if x.isFinite then signed x (plainOfDecimal (Magnitude.ofFloat x).shortest) else nonFinite x

/-- The nearest number of hundredths, a tie going to the even one, taken from the exact value. -/
def fixed2 (x : Float) : List Char :=
  if x.isFinite then
    let (num, den) := (Magnitude.ofFloat x).over (-2)
    signed x (hundredths (nearestQuotient num den))
  else nonFinite x

/-- A share of one as a percentage. -/
def percent (share : Float) : String := String.ofList (fixed2 (share * 100.0) ++ ['%'])

end AsmOrigin.Decimal
