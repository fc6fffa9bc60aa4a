import Mathlib.Data.Int.Init
import MetricRates.Proofs.Time.Calendar

/-!
# Counting days

The days of the calendar are counted from the first day of 1970, forwards and backwards
one date at a time.  Exactly the dates that exist are counted, and the day number of a
date, which is computed at once, is its count.
-/

namespace MetricRates.Time

/-- A date is a number of days after the first day of 1970, or before it if the number is
negative. -/
inductive DayCount : Date → Int → Prop
  | epoch : DayCount ⟨1970, 1, 1⟩ 0
  | next {date : Date} {days : Int} (counted : DayCount date days) :
      DayCount date.next (days + 1)
  | previous {date : Date} {days : Int} (real : date.exists?)
      (counted : DayCount date.next (days + 1)) : DayCount date days

/-! ## Neighbouring dates -/

variable {year : Int} {month day : Nat}

theorem next_of_lt (inMonth : day < daysInMonth year month) :
    Date.next ⟨year, month, day⟩ = ⟨year, month, day + 1⟩ :=
  if_pos inMonth

theorem next_lastDay (beforeLast : month < 12) :
    Date.next ⟨year, month, daysInMonth year month⟩ = ⟨year, month + 1, 1⟩ :=
  (if_neg (Nat.lt_irrefl _)).trans (if_pos beforeLast)

theorem next_lastDay_lastMonth : Date.next ⟨year, 12, 31⟩ = ⟨year + 1, 1, 1⟩ :=
  rfl

/-- The date after a date that exists exists. -/
theorem exists_next {date : Date} (real : date.exists?) : date.next.exists? := by
  obtain ⟨year, month, day⟩ := date
  obtain ⟨inYear, firstDay, lastDay⟩ := exists_iff.mp real
  by_cases inMonth : day < daysInMonth year month
  · rw [next_of_lt inMonth, exists_iff]
    omega
  · obtain rfl : day = daysInMonth year month := by omega
    by_cases beforeLast : month < 12
    · have days := daysInMonth_range year (month + 1)
      rw [next_lastDay beforeLast, exists_iff]
      omega
    · obtain rfl : month = 12 := by omega
      rfl

/-- A date that exists is the one after a date that exists. -/
theorem exists_previous {date : Date} (real : date.exists?) :
    ∃ before : Date, before.exists? ∧ before.next = date := by
  obtain ⟨year, month, day⟩ := date
  obtain ⟨inYear, firstDay, lastDay⟩ := exists_iff.mp real
  by_cases inMonth : 1 < day
  · obtain ⟨before, rfl⟩ : ∃ before, day = before + 1 := ⟨day - 1, by omega⟩
    have inside : before < daysInMonth year month := by omega
    exact ⟨_, exists_iff.mpr ⟨inYear, by omega, by omega⟩, next_of_lt inside⟩
  · obtain rfl : day = 1 := by omega
    by_cases afterFirst : 1 < month
    · obtain ⟨before, rfl⟩ : ∃ before, month = before + 1 := ⟨month - 1, by omega⟩
      have days := daysInMonth_range year before
      have inside : before < 12 := by omega
      exact ⟨_, exists_iff.mpr ⟨by omega, by omega, Nat.le_refl _⟩, next_lastDay inside⟩
    · obtain rfl : month = 1 := by omega
      refine ⟨⟨year - 1, 12, 31⟩, rfl, ?_⟩
      rw [next_lastDay_lastMonth, Int.sub_add_cancel]

/-! ## Counts and day numbers -/

/-- The only date with the number zero is the first day of 1970. -/
theorem eq_epoch_of_dayNumber {date : Date} (real : date.exists?) (zero : date.dayNumber = 0) :
    date = ⟨1970, 1, 1⟩ := by
  obtain ⟨year, month, day⟩ := date
  obtain ⟨inYear, firstDay, lastDay⟩ := exists_iff.mp real
  have days := daysInMonth_range year month
  simp only [Date.dayNumber, daysBeforeMarch, dayOfMarchYear, epochFromMarchZero] at zero
  generalize startsEarly : (if month ≤ 2 then year - 1 else year) = marchYear at zero
  have dayOfYear : 0 ≤ (153 * (((month : Int) + 9) % 12) + 2) / 5 + day - 1 ∧
      (153 * (((month : Int) + 9) % 12) + 2) / 5 + day - 1 ≤ 367 := by omega
  obtain rfl : marchYear = 1969 := by omega
  have lastMonths : ((month : Int) + 9) % 12 = 10 := by omega
  rw [Date.mk.injEq]
  omega

theorem dayCount_of_dayNumber (days : Int) :
    ∀ {date : Date}, date.exists? → date.dayNumber = days → DayCount date days := by
  induction days using Int.induction_on with
  | zero =>
      intro date real zero
      rw [eq_epoch_of_dayNumber real zero]
      exact .epoch
  | succ days ih =>
      intro date real number
      obtain ⟨before, realBefore, rfl⟩ := exists_previous real
      rw [dayNumber_next realBefore] at number
      exact .next (ih realBefore (by omega))
  | pred days ih =>
      intro date real number
      have after : date.next.dayNumber = -days := by
        rw [dayNumber_next real]
        omega
      have counted := ih (exists_next real) after
      exact .previous real (by rwa [Int.sub_add_cancel])

/-- A date is counted exactly when it exists, and its count is its day number. -/
theorem dayCount_iff {date : Date} {days : Int} :
    DayCount date days ↔ date.exists? ∧ date.dayNumber = days := by
  constructor
  · intro counted
    induction counted with
    | epoch => exact ⟨by decide, dayNumber_epoch⟩
    | next counted ih => exact ⟨exists_next ih.1, by rw [dayNumber_next ih.1, ih.2]⟩
    | previous real counted ih =>
        have number := ih.2
        rw [dayNumber_next real] at number
        exact ⟨real, by omega⟩
  · rintro ⟨real, number⟩
    exact dayCount_of_dayNumber days real number

end MetricRates.Time
