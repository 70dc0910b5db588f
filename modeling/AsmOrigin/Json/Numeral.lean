import AsmOrigin.Decimal.Layout
import AsmOrigin.Fingerprint

/-!
Numbers as serialised text has them: digits, not values.

A numeral is read and written digit by digit, and only then asked for the count or the float it stands
for.  The float is computed from the leading digits that fit in 64 bits and one power of ten, with at
most one rounding of each; a numeral too large for a float has none.
-/

namespace AsmOrigin.Json

/-- Sign, integer digits, decimals (none if there is no point), and the power of ten with its sign. -/
structure Numeral where
  negative : Bool
  whole : List Char
  decimals : List Char
  power : Option (Bool × List Char)
  deriving DecidableEq

namespace Numeral

def isDigit (c : Char) : Bool := '0' ≤ c && c ≤ '9'

def digitValue (c : Char) : Nat := c.toNat - '0'.toNat

/-! ## Text -/

def text (n : Numeral) : List Char :=
  (if n.negative then ['-'] else []) ++ n.whole ++
    (if n.decimals.isEmpty then [] else '.' :: n.decimals) ++
    match n.power with
    | none => []
    | some (below, ds) => 'e' :: (if below then '-' else '+') :: ds

/-- The leading digits, if there are any, and what follows them. -/
def digits? (cs : List Char) : Option (List Char × List Char) :=
  match cs.span isDigit with
  | ([], _) => none
  | (ds, r) => some (ds, r)

/-- Integer digits: a zero stands alone. -/
def whole? : List Char → Option (List Char × List Char)
  | '0' :: r => some (['0'], r)
  | cs => digits? cs

def decimals? : List Char → Option (List Char × List Char)
  | '.' :: r => digits? r
  | cs => some ([], cs)

def power? : List Char → Option (Option (Bool × List Char) × List Char)
  | c :: r =>
    if c = 'e' ∨ c = 'E' then
      match r with
      | '-' :: s => (digits? s).map fun (ds, t) => (some (true, ds), t)
      | '+' :: s => (digits? s).map fun (ds, t) => (some (false, ds), t)
      | s => (digits? s).map fun (ds, t) => (some (false, ds), t)
    else some (none, c :: r)
  | [] => some (none, [])

/-- The numeral at the front of a text, and what follows it. -/
def read? (cs : List Char) : Option (Numeral × List Char) := do
  let (negative, r) := match cs with
    | '-' :: r => (true, r)
    | r => (false, r)
  let (whole, r) ← whole? r
  let (decimals, r) ← decimals? r
  let (power, r) ← power? r
  return (⟨negative, whole, decimals, power⟩, r)

/-! ## Counts -/

/-- The counts that numerals can stand for are below this. -/
def countBound : Nat := Nat.pow 2 64

def ofNat (n : Nat) : Numeral := ⟨false, Decimal.digitsOf n, [], none⟩

def digitsValue (ds : List Char) : Nat := ds.foldl (fun n c => 10 * n + digitValue c) 0

/-- A count has neither sign nor decimals nor a power of ten. -/
def toNat? (n : Numeral) : Option Nat :=
  let value := digitsValue n.whole
  if !n.negative && n.decimals.isEmpty && n.power.isNone && value < countBound then some value
  else none

/-! ## Floats -/

/-- Power of ten of the first digit of a decimal. -/
def leadingExponent (d : Decimal) : Int :=
  ((Decimal.digitsOf d.digits).length : Int) - 1 + d.scale

/-- A decimal as a numeral: positional from 10⁻⁵ up to 10¹⁶, otherwise with one integer digit and a
power of ten. -/
def ofDecimal (negative : Bool) (d : Decimal) : Numeral :=
  let e := leadingExponent d
  if -5 ≤ e ∧ e < 16 then
    let (whole, decimals) := d.positional
    ⟨negative, whole, if decimals.isEmpty then ['0'] else decimals, none⟩
  else
    let ds := Decimal.digitsOf d.digits
    ⟨negative, ds.take 1, ds.drop 1, some (e < 0, Decimal.digitsOf e.natAbs)⟩

/-- The shortest numeral of a finite float. -/
def ofFloat (x : Float) : Numeral :=
  ofDecimal (Decimal.isNegative x) (Decimal.Magnitude.ofFloat x).shortest

/-- Appends digits while the number stays below 2⁶⁴; the digits that are left follow. -/
def appendDigits (significand : Nat) : List Char → Nat × List Char
  | [] => (significand, [])
  | c :: r =>
    let next := 10 * significand + digitValue c
    if next < countBound then appendDigits next r else (significand, c :: r)

/-- The leading digits as one number, and the power of ten it is to be scaled by.  Integer digits that
do not fit raise the power, decimals that do not fit are dropped. -/
def significand (n : Numeral) : Nat × Int :=
  let (whole, beyond) := appendDigits 0 n.whole
  let (all, dropped) := appendDigits whole n.decimals
  let power : Int := match n.power with
    | none => 0
    | some (below, ds) => if below then -(digitsValue ds : Int) else digitsValue ds
  (all, (beyond.length : Int) - ((n.decimals.length : Int) - dropped.length) + power)

def powerOfTen (n : Nat) : Float := Float.ofScientific 1 false n

/-- A float times a power of ten, by steps of at most 308; none if it exceeds all floats. -/
def scale (f : Float) (e : Int) : Option Float :=
  if 308 < e then (if f == 0.0 then some f else none)
  else if 0 ≤ e then
    let scaled := f * powerOfTen e.toNat
    if scaled.isFinite then some scaled else none
  else if -308 ≤ e then some (f / powerOfTen e.natAbs)
  else if f == 0.0 then some f
  else scale (f / powerOfTen 308) (e + 308)
termination_by e.natAbs

/-- The float that the numeral stands for. -/
def toFloat? (n : Numeral) : Option Float :=
  let (significand, power) := n.significand
  (scale (ofCount significand) power).map (fun f => if n.negative then -f else f)

end Numeral

end AsmOrigin.Json
