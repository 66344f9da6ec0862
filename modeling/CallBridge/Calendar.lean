import CallBridge.Text.Number

/-!
# Calendar

Dates of the proleptic Gregorian calendar and the text of an instant. The year is taken to begin in
March, so that the leap day is its last; 400 years, an era, have 146097 days.
-/

namespace CallBridge

/-- A date. -/
structure Date where
  year : Nat
  month : Nat
  day : Nat
  deriving DecidableEq, Repr

namespace Date

/-- The days before the first of March of the year zero are not counted; from there to the first of
January 1970 there are this many. -/
def epochDay : Nat := 719468

/-- The days of 400 years. -/
def eraDays : Nat := 146097

/-- The date of a day counted from the first of January 1970. -/
def ofDay (day : Nat) : Date :=
  let z := day + epochDay
  let era := z / eraDays
  let inEra := z % eraDays
  let yearOfEra := (inEra - inEra / 1460 + inEra / 36524 - inEra / 146096) / 365
  let inYear := inEra - (365 * yearOfEra + yearOfEra / 4 - yearOfEra / 100)
  let fromMarch := (5 * inYear + 2) / 153
  let month := if fromMarch < 10 then fromMarch + 3 else fromMarch - 9
  { year := yearOfEra + era * 400 + if month ≤ 2 then 1 else 0
    month
    day := inYear - (153 * fromMarch + 2) / 5 + 1 }

end Date

namespace Calendar
open Text

/-- The text of an instant, given in seconds since 1970 and milliseconds. -/
def format (seconds milliseconds : Nat) : String :=
  let date := Date.ofDay (seconds / 86400)
  let hour := seconds % 86400 / 3600
  let minute := seconds % 3600 / 60
  s!"{padded 4 date.year}-{padded 2 date.month}-{padded 2 date.day}" ++
    s!"T{padded 2 hour}:{padded 2 minute}:{padded 2 (seconds % 60)}.{padded 3 milliseconds}Z"

end Calendar
end CallBridge
