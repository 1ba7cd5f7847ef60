/-!
# Calendar dates

The proleptic Gregorian calendar: every date is a day number counted from 1970-01-01, and every
day number is a date. Years are counted from March inside the two conversions, so that the leap
day is the last day of its year.

Library chrono, `NaiveDate`.
-/

namespace TraceJournal.Time

/-- A date of the proleptic Gregorian calendar. Year 0 comes right before year 1. -/
structure Date where
  year : Int
  month : Nat
  day : Nat
  deriving DecidableEq, Repr

namespace Date

/-- A year has a 29th of February. -/
def isLeapYear (year : Int) : Bool :=
  year % 4 == 0 && (year % 100 != 0 || year % 400 == 0)

/-- The number of days of a month; zero when there is no such month. -/
def daysInMonth (year : Int) (month : Nat) : Nat :=
  match month with
  | 2 => if isLeapYear year then 29 else 28
  | 4 | 6 | 9 | 11 => 30
  | 1 | 3 | 5 | 7 | 8 | 10 | 12 => 31
  | _ => 0

/-- The date exists in the calendar. -/
def isValid (d : Date) : Bool :=
  1 ≤ d.month && d.month ≤ 12 && 1 ≤ d.day && d.day ≤ daysInMonth d.year d.month

/-- Days from 0000-03-01 to 1970-01-01. -/
def epochShift : Int := 719468

/-- The number of days from 1970-01-01 to a date. -/
def toDays (d : Date) : Int :=
  let marchYear := if d.month ≤ 2 then d.year - 1 else d.year
  let marchMonth : Int := (d.month + 9) % 12
  let dayOfYear : Int := (153 * marchMonth + 2) / 5 + d.day - 1
  365 * marchYear + marchYear / 4 - marchYear / 100 + marchYear / 400 + dayOfYear - epochShift

/-- The date a number of days after 1970-01-01. Four hundred years have 146097 days; a century, a
group of four years and a year are cut off in turn, the last one of each keeping the leap day. -/
def ofDays (days : Int) : Date :=
  let shifted := days + epochShift
  let era := shifted / 146097
  let inEra := shifted % 146097
  let century := min 3 (inEra / 36524)
  let inCentury := inEra - century * 36524
  let group := inCentury / 1461
  let inGroup := inCentury % 1461
  let yearOfGroup := min 3 (inGroup / 365)
  let dayOfYear := inGroup - yearOfGroup * 365
  let marchYear := 400 * era + 100 * century + 4 * group + yearOfGroup
  let marchMonth := (5 * dayOfYear + 2) / 153
  let day := dayOfYear - (153 * marchMonth + 2) / 5 + 1
  let month := if marchMonth < 10 then marchMonth + 3 else marchMonth - 9
  { year := if month ≤ 2 then marchYear + 1 else marchYear
    month := month.toNat
    day := day.toNat }

end Date

end TraceJournal.Time
