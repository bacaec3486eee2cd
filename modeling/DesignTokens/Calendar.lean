/-!
# Calendar — days of the calendar

The calendar in use, taken back to the year one: a year has a leap day when four divides it, unless
a hundred does and four hundred does not.  Numbers that are to name a day or a time of day are
looked at from the largest part to the smallest, and the first that does not fit is told.
-/

namespace DesignTokens.Calendar

/-- Whether a year has a leap day. -/
def isLeap (year : Nat) : Bool := year % 4 == 0 && (year % 100 != 0 || year % 400 == 0)

/-- The days of a month. -/
def daysIn (year month : Nat) : Nat :=
  if month = 2 then if isLeap year then 29 else 28
  else if [4, 6, 9, 11].contains month then 30
  else 31

/-- The days of the first `n` months of a year. -/
def daysOfMonths (year : Nat) : Nat → Nat
  | 0 => 0
  | n + 1 => daysOfMonths year n + daysIn year (n + 1)

/-- The number of a day, counted from the first day of the year one. -/
def dayNumber (year month day : Nat) : Nat :=
  let past := year - 1
  365 * past + past / 4 - past / 100 + past / 400 + daysOfMonths year (month - 1) + day

/-! ## Numbers that name a day or a time of day -/

/-- The part of a day or of a time of day that does not fit. -/
inductive Fault where
  | year (n : Int)
  | month
  | day
  | hour
  | minute
  | second
  deriving DecidableEq, Repr

/-- The wording of a fault. -/
def Fault.message : Fault → String
  | .year n => "year " ++ toString n ++ " is out of range"
  | .month => "month must be in 1..12"
  | .day => "day is out of range for month"
  | .hour => "hour must be in 0..23"
  | .minute => "minute must be in 0..59"
  | .second => "second must be in 0..59"

/-- Whether numbers name a day of a year of at most four digits. -/
def checkDay (year month day : Int) : Except Fault Unit :=
  if year < 1 ∨ 9999 < year then .error (.year year)
  else if month < 1 ∨ 12 < month then .error .month
  else if day < 1 ∨ daysIn year.toNat month.toNat < day then .error .day
  else .ok ()

/-- Whether numbers name a time of day. -/
def checkTime (hour minute second : Int) : Except Fault Unit :=
  if hour < 0 ∨ 23 < hour then .error .hour
  else if minute < 0 ∨ 59 < minute then .error .minute
  else if second < 0 ∨ 59 < second then .error .second
  else .ok ()

end DesignTokens.Calendar
