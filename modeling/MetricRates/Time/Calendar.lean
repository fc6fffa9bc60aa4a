/-!
# The proleptic Gregorian calendar

Dates are numbered by days, day `0` being 1970-01-01.  Both directions count
years from March, so that the leap day is the last day of its year and the
lengths of the months repeat in a fixed pattern.
-/

namespace MetricRates.Time

/-- A year, a month and a day of the month, not necessarily of a real date. -/
structure Date where
  year : Int
  month : Nat
  day : Nat
  deriving DecidableEq, Repr

/-- Whether a year has a leap day. -/
def isLeapYear (year : Int) : Bool :=
  year % 4 == 0 && (year % 100 != 0 || year % 400 == 0)

/-- The number of days of a month. -/
def daysInMonth (year : Int) (month : Nat) : Nat :=
  match month with
  | 2 => if isLeapYear year then 29 else 28
  | 4 | 6 | 9 | 11 => 30
  | _ => 31

/-- Whether a date exists in the calendar. -/
def Date.exists? (date : Date) : Bool :=
  1 ≤ date.month && date.month ≤ 12 && 1 ≤ date.day &&
    date.day ≤ daysInMonth date.year date.month

/-- The day of the year that starts in March, for a month counted from March. -/
def dayOfMarchYear (monthFromMarch day : Int) : Int :=
  (153 * monthFromMarch + 2) / 5 + day - 1

/-- The number of days between 0000-03-01 and the first of March of a year. -/
def daysBeforeMarch (year : Int) : Int :=
  365 * year + year / 4 - year / 100 + year / 400

/-- The day number of 1970-01-01 counted from 0000-03-01. -/
def epochFromMarchZero : Int := 719468

/-- The day number of a date. -/
def Date.dayNumber (date : Date) : Int :=
  let marchYear := if date.month ≤ 2 then date.year - 1 else date.year
  let monthFromMarch : Int := (date.month + 9) % 12
  daysBeforeMarch marchYear + dayOfMarchYear monthFromMarch date.day - epochFromMarchZero

/-- The date with a day number. -/
def Date.ofDayNumber (dayNumber : Int) : Date :=
  let fromMarchZero := dayNumber + epochFromMarchZero
  let era := fromMarchZero / 146097
  let dayOfEra := fromMarchZero % 146097
  let yearOfEra :=
    (dayOfEra - dayOfEra / 1460 + dayOfEra / 36524 - dayOfEra / 146096) / 365
  let dayOfYear := dayOfEra - (365 * yearOfEra + yearOfEra / 4 - yearOfEra / 100)
  let monthFromMarch := (5 * dayOfYear + 2) / 153
  let day := dayOfYear - (153 * monthFromMarch + 2) / 5 + 1
  let month := if monthFromMarch < 10 then monthFromMarch + 3 else monthFromMarch - 9
  let marchYear := yearOfEra + era * 400
  { year := if month ≤ 2 then marchYear + 1 else marchYear
    month := month.toNat
    day := day.toNat }

/-- Day zero is the first day of 1970. -/
theorem dayNumber_epoch : Date.dayNumber ⟨1970, 1, 1⟩ = 0 := by decide

end MetricRates.Time
