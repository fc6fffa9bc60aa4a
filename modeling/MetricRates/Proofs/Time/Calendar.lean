import MetricRates.Time.Calendar

/-!
# Dates and day numbers

Four hundred years are an era of 146097 days.  An era has four centuries, of which
the last is a day longer; a century has twenty-five spans of four years, of which the
last is a day shorter unless it ends the era; and the last of the four years has the
leap day, as years are counted from March.  So every day number is that of a date
that exists, and its date has that number.
-/

namespace MetricRates.Time

/-! ## Days of an era -/

/-- A day of an era: `day` days into the year `year` of a span of four years of a
century.  Only a leap year has a day 365. -/
structure InEra (century span year day : Int) : Prop where
  century_range : 0 ≤ century ∧ century ≤ 3
  span_range : 0 ≤ span ∧ span ≤ 24
  year_range : 0 ≤ year ∧ year ≤ 3
  day_range : 0 ≤ day ∧ day ≤ 365
  leapDay : day = 365 → year = 3 ∧ (span = 24 → century = 3)

/-- The number of a day within its era. -/
def dayOfEra (century span year day : Int) : Int :=
  36524 * century + 1461 * span + 365 * year + day

/-- The number of a year within its era. -/
def yearOfEra (century span year : Int) : Int :=
  100 * century + 4 * span + year

theorem exists_inEra {number : Int} (low : 0 ≤ number) (high : number < 146097) :
    ∃ century span year day, InEra century span year day ∧
      dayOfEra century span year day = number := by
  obtain ⟨century, inEra, inCentury⟩ : ∃ century : Int, (0 ≤ century ∧ century ≤ 3) ∧
      0 ≤ number - 36524 * century ∧ number - 36524 * century ≤ 36524 ∧
        (number - 36524 * century = 36524 → century = 3) := by
    by_cases last : number = 146096
    · exact ⟨3, by omega, by omega⟩
    · exact ⟨number / 36524, by omega, by omega⟩
  obtain ⟨span, inSpans, inSpan⟩ : ∃ span : Int, (0 ≤ span ∧ span ≤ 24) ∧
      0 ≤ number - 36524 * century - 1461 * span ∧
        number - 36524 * century - 1461 * span ≤ 1460 :=
    ⟨(number - 36524 * century) / 1461, by omega, by omega⟩
  by_cases leap : number - 36524 * century - 1461 * span = 1460
  · exact ⟨century, span, 3, 365, ⟨inEra, inSpans, by omega, by omega, by omega⟩,
      by unfold dayOfEra; omega⟩
  · exact ⟨century, span, (number - 36524 * century - 1461 * span) / 365,
      (number - 36524 * century - 1461 * span) % 365,
      ⟨inEra, inSpans, by omega, by omega, by omega⟩, by unfold dayOfEra; omega⟩

namespace InEra

variable {century span year day : Int}

theorem dayOfEra_range (inEra : InEra century span year day) :
    0 ≤ dayOfEra century span year day ∧ dayOfEra century span year day < 146097 := by
  obtain ⟨inCenturies, inSpans, inYears, inDays, leapDay⟩ := inEra
  unfold dayOfEra
  omega

/-- The year of a day is its number over 365, once the leap days before it are taken
out. -/
theorem yearOfEra_eq (inEra : InEra century span year day) :
    (dayOfEra century span year day - dayOfEra century span year day / 1460 +
        dayOfEra century span year day / 36524 - dayOfEra century span year day / 146096) / 365 =
      yearOfEra century span year := by
  obtain ⟨inCenturies, inSpans, inYears, inDays, leapDay⟩ := inEra
  unfold dayOfEra yearOfEra
  by_cases last : century = 3 ∧ span = 24 ∧ year = 3 ∧ day = 365
  · obtain ⟨rfl, rfl, rfl, rfl⟩ := last
    decide
  · have centuries : (36524 * century + 1461 * span + 365 * year + day) / 36524 = century := by
      omega
    have era : (36524 * century + 1461 * span + 365 * year + day) / 146096 = 0 := by omega
    rw [centuries, era]
    omega

end InEra

/-! ## Dates of a year counted from March -/

/-- The date a number of days after the first of March of a year. -/
def Date.ofMarchYear (marchYear dayOfYear : Int) : Date :=
  let monthFromMarch := (5 * dayOfYear + 2) / 153
  let day := dayOfYear - (153 * monthFromMarch + 2) / 5 + 1
  let month := if monthFromMarch < 10 then monthFromMarch + 3 else monthFromMarch - 9
  { year := if month ≤ 2 then marchYear + 1 else marchYear
    month := month.toNat
    day := day.toNat }

theorem dayNumber_ofMarchYear {marchYear dayOfYear : Int} (low : 0 ≤ dayOfYear)
    (high : dayOfYear ≤ 365) :
    (Date.ofMarchYear marchYear dayOfYear).dayNumber =
      daysBeforeMarch marchYear + dayOfYear - epochFromMarchZero := by
  obtain ⟨month, months, inYear⟩ : ∃ month : Int, (5 * dayOfYear + 2) / 153 = month ∧
      0 ≤ month ∧ month ≤ 11 := ⟨_, rfl, by omega⟩
  have firstDay : (153 * month + 2) / 5 ≤ dayOfYear := by omega
  simp only [Date.ofMarchYear, Date.dayNumber, dayOfMarchYear, months]
  by_cases early : month < 10
  · have later : ¬ month + 3 ≤ 2 := by omega
    have monthAgain : ((((month + 3).toNat : Nat) : Int) + 9) % 12 = month := by omega
    simp only [if_pos early, if_neg later, monthAgain]
    rw [if_neg (by omega)]
    omega
  · have later : month - 9 ≤ 2 := by omega
    have monthAgain : ((((month - 9).toNat : Nat) : Int) + 9) % 12 = month := by omega
    simp only [if_neg early, if_pos later, monthAgain]
    rw [if_pos (by omega), Int.add_sub_cancel]
    omega

/-- The number of days of a month that is counted from March. -/
theorem daysInMonth_fromMarch (year : Int) {month : Int} (low : 0 ≤ month) (high : month ≤ 10) :
    (daysInMonth year (if month < 10 then month + 3 else month - 9).toNat : Int) =
      (153 * (month + 1) + 2) / 5 - (153 * month + 2) / 5 := by
  obtain rfl | rfl | rfl | rfl | rfl | rfl | rfl | rfl | rfl | rfl | rfl :
    month = 0 ∨ month = 1 ∨ month = 2 ∨ month = 3 ∨ month = 4 ∨ month = 5 ∨ month = 6 ∨
      month = 7 ∨ month = 8 ∨ month = 9 ∨ month = 10 := by omega
  all_goals rfl

theorem exists_ofMarchYear {marchYear dayOfYear : Int} (low : 0 ≤ dayOfYear)
    (high : dayOfYear ≤ 365) (leap : dayOfYear = 365 → isLeapYear (marchYear + 1)) :
    (Date.ofMarchYear marchYear dayOfYear).exists? := by
  obtain ⟨month, months, inYear⟩ : ∃ month : Int, (5 * dayOfYear + 2) / 153 = month ∧
      0 ≤ month ∧ month ≤ 11 := ⟨_, rfl, by omega⟩
  simp only [Date.ofMarchYear, Date.exists?, months, Bool.and_eq_true, decide_eq_true_eq]
  refine ⟨⟨⟨by split <;> omega, by split <;> omega⟩, by omega⟩, ?_⟩
  by_cases february : month = 11
  · subst february
    by_cases last : dayOfYear = 365
    · subst last
      change 29 ≤ if isLeapYear (marchYear + 1) then 29 else 28
      simp [leap rfl]
    · have short : 28 ≤ if isLeapYear (marchYear + 1) then 29 else 28 := by split <;> decide
      change (dayOfYear - 337 + 1).toNat ≤ if isLeapYear (marchYear + 1) then 29 else 28
      omega
  · have size := daysInMonth_fromMarch
      (if (if month < 10 then month + 3 else month - 9) ≤ 2 then marchYear + 1 else marchYear)
      inYear.1 (by omega)
    omega

/-! ## Day numbers -/

/-- A day number is that of a day of an era, and its date is that of the day. -/
theorem exists_ofDayNumber_eq (number : Int) :
    ∃ era century span year day, InEra century span year day ∧
      number + epochFromMarchZero = 146097 * era + dayOfEra century span year day ∧
      Date.ofDayNumber number = .ofMarchYear (yearOfEra century span year + era * 400) day := by
  have low : 0 ≤ (number + epochFromMarchZero) % 146097 := by omega
  obtain ⟨century, span, year, day, inEra, split⟩ := exists_inEra low (by omega)
  refine ⟨(number + epochFromMarchZero) / 146097, century, span, year, day, inEra, by omega, ?_⟩
  have yearDays : dayOfEra century span year day - (365 * yearOfEra century span year +
      yearOfEra century span year / 4 - yearOfEra century span year / 100) = day := by
    obtain ⟨inCenturies, inSpans, inYears, inDays, leapDay⟩ := inEra
    unfold dayOfEra yearOfEra
    omega
  simp only [Date.ofDayNumber, Date.ofMarchYear, ← split, inEra.yearOfEra_eq, yearDays]

theorem daysBeforeMarch_eq {century span year day : Int} (inEra : InEra century span year day)
    (era : Int) :
    daysBeforeMarch (yearOfEra century span year + era * 400) + day =
      146097 * era + dayOfEra century span year day := by
  obtain ⟨inCenturies, inSpans, inYears, inDays, leapDay⟩ := inEra
  unfold daysBeforeMarch dayOfEra yearOfEra
  omega

theorem InEra.isLeapYear {century span year : Int} (inEra : InEra century span year 365)
    (era : Int) : isLeapYear (yearOfEra century span year + era * 400 + 1) := by
  obtain ⟨inCenturies, inSpans, inYears, inDays, leapDay⟩ := inEra
  simp only [Time.isLeapYear, yearOfEra, Bool.and_eq_true, Bool.or_eq_true, beq_iff_eq,
    bne_iff_ne]
  omega

/-- The date of a day number has that number. -/
@[simp]
theorem dayNumber_ofDayNumber (number : Int) : (Date.ofDayNumber number).dayNumber = number := by
  obtain ⟨era, century, span, year, day, inEra, split, date⟩ := exists_ofDayNumber_eq number
  obtain ⟨low, high⟩ := inEra.day_range
  rw [date, dayNumber_ofMarchYear low high, daysBeforeMarch_eq inEra era]
  omega

/-- The date of a day number exists. -/
theorem exists_ofDayNumber (number : Int) : (Date.ofDayNumber number).exists? := by
  obtain ⟨era, century, span, year, day, inEra, -, date⟩ := exists_ofDayNumber_eq number
  obtain ⟨low, high⟩ := inEra.day_range
  rw [date]
  exact exists_ofMarchYear low high fun leap => (leap ▸ inEra).isLeapYear era

/-- The years of the first twenty-four eras have at most four digits. -/
theorem year_ofDayNumber_range {number : Int} (low : 0 ≤ number + epochFromMarchZero)
    (high : number + epochFromMarchZero < 24 * 146097) :
    0 ≤ (Date.ofDayNumber number).year ∧ (Date.ofDayNumber number).year < 10000 := by
  obtain ⟨era, century, span, year, day, inEra, split, date⟩ := exists_ofDayNumber_eq number
  have inRange := inEra.dayOfEra_range
  obtain ⟨inCenturies, inSpans, inYears, -, -⟩ := inEra
  simp only [date, Date.ofMarchYear, yearOfEra]
  split <;> omega

/-! ## The next day -/

theorem exists_iff {year : Int} {month day : Nat} :
    Date.exists? ⟨year, month, day⟩ ↔
      (1 ≤ month ∧ month ≤ 12) ∧ 1 ≤ day ∧ day ≤ daysInMonth year month := by
  simp only [Date.exists?, Bool.and_eq_true, decide_eq_true_eq, and_assoc]

theorem daysInMonth_range (year : Int) (month : Nat) :
    28 ≤ daysInMonth year month ∧ daysInMonth year month ≤ 31 := by
  unfold daysInMonth
  split
  · split <;> decide
  all_goals decide

/-- The date after a date. -/
def Date.next (date : Date) : Date :=
  if date.day < daysInMonth date.year date.month then { date with day := date.day + 1 }
  else if date.month < 12 then { date with month := date.month + 1, day := 1 }
  else { year := date.year + 1, month := 1, day := 1 }

/-- The February before the March of a year has the leap day of that year. -/
theorem daysBeforeMarch_sub (year : Int) :
    daysBeforeMarch year - daysBeforeMarch (year - 1) = if isLeapYear year then 366 else 365 := by
  unfold daysBeforeMarch isLeapYear
  simp only [Bool.and_eq_true, Bool.or_eq_true, beq_iff_eq, bne_iff_ne]
  split <;> omega

/-- Day numbers count the days: the next date has the next number. -/
theorem dayNumber_next {date : Date} (real : date.exists?) :
    date.next.dayNumber = date.dayNumber + 1 := by
  obtain ⟨year, month, day⟩ := date
  obtain ⟨⟨firstMonth, lastMonth⟩, firstDay, lastDay⟩ := exists_iff.mp real
  by_cases inside : day < daysInMonth year month
  · simp only [Date.next, if_pos inside, Date.dayNumber, dayOfMarchYear]
    omega
  · obtain rfl : day = daysInMonth year month := by omega
    by_cases february : month = 2
    · subst february
      have leap := daysBeforeMarch_sub year
      simp only [Date.next, Date.dayNumber, dayOfMarchYear, daysInMonth] at leap ⊢
      split at leap <;> simp_all <;> omega
    · obtain rfl | rfl | rfl | rfl | rfl | rfl | rfl | rfl | rfl | rfl | rfl :
        month = 1 ∨ month = 3 ∨ month = 4 ∨ month = 5 ∨ month = 6 ∨ month = 7 ∨ month = 8 ∨
          month = 9 ∨ month = 10 ∨ month = 11 ∨ month = 12 := by omega
      all_goals
        simp [Date.next, Date.dayNumber, dayOfMarchYear, daysInMonth]
        omega

end MetricRates.Time
