/-!
Dates and times of day in universal time.
-/

namespace AsmOrigin.Calendar

structure Date where
  year : Nat
  month : Nat
  day : Nat
  deriving DecidableEq

/-- The date so many days after the first of January 1970.  Years are counted from March on, so that a
leap day comes last, within eras of 400 years. -/
def dateOfDays (days : Nat) : Date :=
  let shifted := days + 719468
  let dayOfEra := shifted % 146097
  let yearOfEra := (dayOfEra - dayOfEra / 1460 + dayOfEra / 36524 - dayOfEra / 146096) / 365
  let dayOfYear := dayOfEra - (365 * yearOfEra + yearOfEra / 4 - yearOfEra / 100)
  let marchMonth := (5 * dayOfYear + 2) / 153
  let month := if marchMonth < 10 then marchMonth + 3 else marchMonth - 9
  { year := yearOfEra + 400 * (shifted / 146097) + (if month ≤ 2 then 1 else 0)
    month
    day := dayOfYear - (153 * marchMonth + 2) / 5 + 1 }

/-- A number filled up with zeros to the given width. -/
def padded (width n : Nat) : String :=
  let ds := Nat.toDigits 10 n
  String.ofList (List.replicate (width - ds.length) '0' ++ ds)

/-- Date and time of day so many nanoseconds after the beginning of 1970. -/
def dateTime (nanoseconds : Nat) : String :=
  let seconds := nanoseconds / Nat.pow 10 9
  let d := dateOfDays (seconds / 86400)
  let time := seconds % 86400
  s!"{padded 4 d.year}-{padded 2 d.month}-{padded 2 d.day}T{padded 2 (time / 3600)}:" ++
    s!"{padded 2 (time / 60 % 60)}:{padded 2 (time % 60)}.{padded 9 (nanoseconds % Nat.pow 10 9)}+00:00"

end AsmOrigin.Calendar
