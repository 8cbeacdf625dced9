/-!
# `RepoAtlas.Instant`: points in time

An instant is a date and a time of day in universal time. Its text is the usual one of sortable
dates; the calendar is the Gregorian one at all times.
-/

set_option autoImplicit false

namespace RepoAtlas

/-- A point in time, in universal time. -/
structure Instant where
  year : Nat
  month : Nat
  day : Nat
  hour : Nat
  minute : Nat
  second : Nat
  microsecond : Nat
  deriving DecidableEq, Repr

/-- A number with zeros in front, up to a width. -/
def padded (width n : Nat) : String :=
  let digits := toString n
  String.ofList (List.replicate (width - digits.length) '0') ++ digits

namespace Instant

/-- The date of an instant as text. -/
def dateText (t : Instant) : String :=
  s!"{padded 4 t.year}-{padded 2 t.month}-{padded 2 t.day}"

/-- The time of day of an instant as text, in whole seconds. -/
def timeText (t : Instant) : String :=
  s!"{padded 2 t.hour}:{padded 2 t.minute}:{padded 2 t.second}"

/-- An instant as text. Whole seconds have no fraction, others one of six digits. -/
def text (t : Instant) : String :=
  let fraction := if t.microsecond = 0 then "" else "." ++ padded 6 t.microsecond
  t.dateText ++ "T" ++ t.timeText ++ fraction ++ "Z"

/-- An instant as the lines of a log show it, in milliseconds. -/
def logText (t : Instant) : String :=
  t.dateText ++ " " ++ t.timeText ++ "," ++ padded 3 (t.microsecond / 1000)

/-- The date of a day, counted from the first of January 1970. A year is taken to start in March,
so that a leap day is its last day, and 400 years have 146097 days. -/
def dateOfDay (day : Nat) : Nat × Nat × Nat :=
  let shifted := day + 719468
  let era := shifted / 146097
  let dayOfEra := shifted % 146097
  let yearOfEra := (dayOfEra - dayOfEra / 1460 + dayOfEra / 36524 - dayOfEra / 146096) / 365
  let dayOfYear := dayOfEra - (365 * yearOfEra + yearOfEra / 4 - yearOfEra / 100)
  let monthFromMarch := (5 * dayOfYear + 2) / 153
  let month := if monthFromMarch < 10 then monthFromMarch + 3 else monthFromMarch - 9
  let year := yearOfEra + 400 * era + if month ≤ 2 then 1 else 0
  (year, month, dayOfYear - (153 * monthFromMarch + 2) / 5 + 1)

/-- The instant a number of microseconds after the start of 1970. -/
def ofMicroseconds (n : Nat) : Instant :=
  let seconds := n / 1000000
  let (year, month, day) := dateOfDay (seconds / 86400)
  { year, month, day
    hour := seconds / 3600 % 24
    minute := seconds / 60 % 60
    second := seconds % 60
    microsecond := n % 1000000 }

end Instant

end RepoAtlas
