import RepoAtlas.Yaml.Scalar

/-!
# `RepoAtlas.Yaml.Date`: which dates there are

A written date need not exist. The parts are checked in a fixed order: the offset from universal
time, which stays within a day, then year, month, day, and the parts of the time of day.
-/

set_option autoImplicit false

namespace RepoAtlas.Yaml

/-- Whether a year is a leap year. -/
def isLeapYear (year : Nat) : Bool :=
  year % 4 = 0 && (year % 100 ≠ 0 || year % 400 = 0)

/-- The number of days of a month. -/
def daysOfMonth (year month : Nat) : Nat :=
  if month = 2 then (if isLeapYear year then 29 else 28)
  else if [4, 6, 9, 11].contains month then 30
  else 31

/-- The wording for a duration of whole minutes. -/
def durationText (minutes : Int) : String :=
  let days := minutes.fdiv 1440
  let seconds := minutes.fmod 1440 * 60
  let parts :=
    (if days = 0 then [] else [s!"days={days}"]) ++
      (if seconds = 0 then [] else [s!"seconds={seconds}"])
  "datetime.timedelta(" ++ (if parts.isEmpty then "0" else ", ".intercalate parts) ++ ")"

/-- Checks the offset from universal time. -/
def checkOffset (negative : Bool) (hours minutes : Nat) : Except Fault Unit :=
  let size : Int := hours * 60 + minutes
  if 1440 ≤ size then
    .error (.dateRange ("offset must be a timedelta strictly between -timedelta(hours=24) and " ++
      "timedelta(hours=24), not " ++ durationText (if negative then -size else size) ++ "."))
  else .ok ()

/-- Checks year, month and day. -/
def checkDate (year month day : Nat) : Except Fault Unit :=
  if year = 0 then .error (.dateRange s!"year {year} is out of range")
  else if month = 0 || 12 < month then .error (.dateRange "month must be in 1..12")
  else if day = 0 || daysOfMonth year month < day then
    .error (.dateRange "day is out of range for month")
  else .ok ()

/-- Checks the time of day. -/
def checkTime (hour minute second : Nat) : Except Fault Unit :=
  if 23 < hour then .error (.dateRange "hour must be in 0..23")
  else if 59 < minute then .error (.dateRange "minute must be in 0..59")
  else if 59 < second then .error (.dateRange "second must be in 0..59")
  else .ok ()

/-- Checks that a written date exists. -/
def checkStamp (stamp : Scalar.Stamp) : Except Fault Unit := do
  if let some (negative, hours, minutes) := stamp.offset then
    checkOffset negative hours minutes
  checkDate stamp.year (Scalar.number stamp.month) (Scalar.number stamp.day)
  if let some (hour, minute, second, _) := stamp.time then
    checkTime hour minute second

end RepoAtlas.Yaml
