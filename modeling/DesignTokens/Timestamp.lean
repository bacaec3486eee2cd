import DesignTokens.Calendar

/-!
# Timestamp — dates and times of day

A time of day on a date of the Gregorian calendar, and its text: the date, a blank and the time,
each part but the year in two digits.

* `Timestamp.ofNumbers` — the timestamp that six numbers name, if they name one.
* `Timestamp.ofUnixTime` — the timestamp of a count of seconds since the start of 1970.
-/

namespace DesignTokens

/-- A time of day on a date. -/
structure Timestamp where
  year : Nat
  month : Nat
  day : Nat
  hour : Nat
  minute : Nat
  second : Nat
  deriving DecidableEq, Repr

namespace Timestamp

/-- A number in two digits. -/
def twoDigits (n : Nat) : String := (if n < 10 then "0" else "") ++ toString n

/-- The date and the time of day. -/
def text (t : Timestamp) : String :=
  toString t.year ++ "-" ++ twoDigits t.month ++ "-" ++ twoDigits t.day ++ " "
    ++ twoDigits t.hour ++ ":" ++ twoDigits t.minute ++ ":" ++ twoDigits t.second

/-- The timestamp that numbers name; the day is looked at before the time of day. -/
def ofNumbers (year month day hour minute second : Int) : Except Calendar.Fault Timestamp := do
  Calendar.checkDay year month day
  Calendar.checkTime hour minute second
  return ⟨year.toNat, month.toNat, day.toNat, hour.toNat, minute.toNat, second.toNat⟩

example : ofNumbers 2024 2 29 23 59 59 = .ok ⟨2024, 2, 29, 23, 59, 59⟩ := rfl
example : ofNumbers 2023 2 29 24 0 0 = .error .day := rfl
example : ofNumbers 2023 2 28 24 60 0 = .error .hour := rfl

/-- The date, as year, month and day, that is a number of days after the first of March of the year
zero.  Years are counted from March, so that the day that comes and goes is the last of one. -/
def dateOfDays (days : Nat) : Nat × Nat × Nat :=
  let inCycle := days % 146097
  let yearInCycle := (inCycle - inCycle / 1460 + inCycle / 36524 - inCycle / 146096) / 365
  let inYear := inCycle - (365 * yearInCycle + yearInCycle / 4 - yearInCycle / 100)
  let monthFromMarch := (5 * inYear + 2) / 153
  let day := inYear - (153 * monthFromMarch + 2) / 5 + 1
  let year := days / 146097 * 400 + yearInCycle
  if monthFromMarch < 10 then (year, monthFromMarch + 3, day) else (year + 1, monthFromMarch - 9, day)

/-- The days from the first of March of the year zero to the start of 1970. -/
def unixEpochDays : Nat := 719468

/-- The timestamp of a count of seconds since the start of 1970. -/
def ofUnixTime (seconds : Nat) : Timestamp :=
  let (year, month, day) := dateOfDays (unixEpochDays + seconds / 86400)
  let inDay := seconds % 86400
  { year, month, day, hour := inDay / 3600, minute := inDay / 60 % 60, second := inDay % 60 }

example : ofUnixTime 0 = ⟨1970, 1, 1, 0, 0, 0⟩ := by decide
example : ofUnixTime 951782400 = ⟨2000, 2, 29, 0, 0, 0⟩ := by decide
example : ofUnixTime 1735786445 = ⟨2025, 1, 2, 2, 54, 5⟩ := by decide

end Timestamp

end DesignTokens
