import MetricRates.Proofs.Number.IntegerText
import MetricRates.Proofs.Time.DateText
import MetricRates.Proofs.Time.DayCount
import MetricRates.Proofs.Time.Forms

/-!
# Dates and times in UTC

A date with a time of day and no zone is read as the instant that both denote in UTC, and
a date alone as that of its midnight, exactly when the date is one of the calendar, the
time of day occurs and the instant fits in the range of timestamps.
-/

namespace MetricRates.Time

open Text Number

/-! ## Instants in UTC -/

/-- The nanoseconds from the first moment of 1970 to a date and a time of day in UTC: the
days up to the date are counted, and the hour and the minute occur. -/
def Denotes (date : Date) (time : TimeOfDay) (nanos : Int) : Prop :=
  ∃ days, DayCount date days ∧ time.hour ≤ 23 ∧ time.minute ≤ 59 ∧
    nanos = (((days * 24 + time.hour) * 60 + time.minute) * 60 + time.second) * 1000000000 +
      time.nanos

/-- A date and a time of day outside a leap second have the instant that they denote. -/
theorem instant?_eq_some_iff {date : Date} {time : TimeOfDay} (inMinute : time.second ≤ 59)
    {nanos : Int} : instant? date time = some nanos ↔ Denotes date time nanos := by
  have occurs : time.exists? ↔ time.hour ≤ 23 ∧ time.minute ≤ 59 := by
    simp only [TimeOfDay.exists?, Bool.and_eq_true, decide_eq_true_eq]
    omega
  unfold instant?
  by_cases real : date.exists? && time.exists?
  · rw [if_pos real]
    rw [Bool.and_eq_true, occurs] at real
    simp only [Denotes, dayCount_iff, Option.some.injEq]
    constructor
    · intro value
      exact ⟨date.dayNumber, ⟨real.1, rfl⟩, real.2.1, real.2.2, by omega⟩
    · rintro ⟨days, ⟨-, rfl⟩, -, -, value⟩
      omega
  · rw [if_neg real]
    rw [Bool.and_eq_true, occurs] at real
    simp only [Denotes, dayCount_iff, reduceCtorEq, false_iff]
    rintro ⟨days, ⟨inCalendar, -⟩, inDay, inHour, -⟩
    exact real ⟨inCalendar, inDay, inHour⟩

/-- An instant is that of a timestamp exactly when it fits. -/
theorem map_nanos_bind_ofNanos?_eq_some_iff {instant : Option Int} {n : Int} :
    (instant.bind Timestamp.ofNanos?).map Timestamp.nanos = some n ↔
      instant = some n ∧ FitsWord n := by
  cases instant with
  | none => simp
  | some m =>
      simp only [Option.bind_some, Option.map_eq_some_iff, Timestamp.ofNanos?_eq_some_iff,
        Option.some.injEq]
      constructor
      · rintro ⟨t, rfl, rfl⟩
        exact ⟨rfl, t.minNanos_le, Int.lt_add_one_of_le t.le_maxNanos⟩
      · rintro ⟨rfl, low, high⟩
        exact ⟨⟨m, low, Int.le_of_lt_add_one high⟩, rfl, rfl⟩

/-! ## The text of a date and a time of day -/

variable (date : DateText) (clock : ClockText) {mark : Char}

theorem readInstant?_withoutZone (parts : mark = 'T' ∨ mark = ' ') :
    readInstant? (date.chars ++ mark :: clock.chars) = none := by
  have nothing : EndsNumber [] := nofun
  have noZone := readInstant?_chars date clock (parts.imp_right .inr) nothing nofun
  rwa [List.append_nil] at noZone

theorem readDateTime?_chars (parts : mark = 'T' ∨ mark = ' ') :
    readDateTime? (date.chars ++ mark :: clock.chars) = instant? date.date clock.time := by
  refine (bind_of_eq_some (readDate?_chars date _) _).trans ?_
  rcases parts with rfl | rfl
  · exact bind_of_eq_some (readTimeOfDay?_chars clock (show allBlank [] by decide)) _
  · exact bind_of_eq_some (readTimeOfDay?_chars clock (show allBlank [' '] by decide)) _

theorem readMidnight?_withTime : readMidnight? (date.chars ++ mark :: clock.chars) = none :=
  bind_of_eq_some (readDate?_chars date _) _

theorem readDateTime?_date : readDateTime? date.chars = none :=
  bind_of_eq_some (readDate?_date date) _

theorem readMidnight?_date : readMidnight? date.chars = instant? date.date midnight :=
  bind_of_eq_some (readDate?_date date) _

theorem ofText?_dateTime (parts : mark = 'T' ∨ mark = ' ') :
    Timestamp.ofText? (String.ofList (date.chars ++ mark :: clock.chars)) =
      (instant? date.date clock.time).bind Timestamp.ofNanos? := by
  have solid := (solidEnds_of_isInstantChar date.isInstantChar).append
    (solidEnds_of_isInstantChar clock.isInstantChar) date.chars_ne_nil clock.chars_ne_nil [mark]
  rw [List.append_assoc, List.singleton_append] at solid
  rw [ofText?_of_solidEnds solid, readTrimmedTime?_of_hyphenated (date.hyphenated _),
    readInstant?_withoutZone date clock parts, readDateTime?_chars date clock parts,
    readMidnight?_withTime, Option.none_or, Option.or_none]

theorem ofText?_date :
    Timestamp.ofText? (String.ofList date.chars) =
      (instant? date.date midnight).bind Timestamp.ofNanos? := by
  have hyphenated := date.hyphenated []
  rw [List.append_nil] at hyphenated
  rw [ofText?_of_solidEnds (solidEnds_of_isInstantChar date.isInstantChar),
    readTrimmedTime?_of_hyphenated hyphenated, readInstant?_date, readDateTime?_date,
    readMidnight?_date, Option.none_or, Option.none_or]

/-- A date alone is read as its midnight in UTC, and a date and a time of day, with a space
or a `T` between them, as the instant that they denote in UTC.  Each is read exactly when
it denotes an instant and the instant fits. -/
theorem ofText?_utc (date : DateText) {before after : List Char} (blankBefore : allBlank before)
    (blankAfter : allBlank after) (n : Int) :
    ((Timestamp.ofText? (String.ofList (before ++ date.chars ++ after))).map Timestamp.nanos =
        some n ↔ Denotes date.date midnight n ∧ FitsWord n) ∧
    ∀ clock : ClockText, clock.second.value ≤ 59 → ∀ mark ∈ ['T', ' '],
      ((Timestamp.ofText? (String.ofList
          (before ++ (date.chars ++ mark :: clock.chars) ++ after))).map Timestamp.nanos =
        some n ↔ Denotes date.date clock.time n ∧ FitsWord n) := by
  constructor
  · rw [ofText?_surrounded blankBefore blankAfter, ofText?_date,
      map_nanos_bind_ofNanos?_eq_some_iff, instant?_eq_some_iff (by decide)]
  · intro clock inMinute mark parts
    rw [ofText?_surrounded blankBefore blankAfter,
      ofText?_dateTime date clock (by simpa using parts), map_nanos_bind_ofNanos?_eq_some_iff,
      instant?_eq_some_iff inMinute]

/-- The last day before 1970. -/
def dayBeforeEpoch : DateText where
  year := paddedNumeral (by decide) (show 1969 < 10 ^ 4 by decide)
  month := paddedNumeral (by decide) (show 12 < 10 ^ 2 by decide)
  day := paddedNumeral (by decide) (show 31 < 10 ^ 2 by decide)

/-- The last nanosecond of a day. -/
def lastMoment : ClockText where
  hour := paddedNumeral (by decide) (show 23 < 10 ^ 2 by decide)
  minute := paddedNumeral (by decide) (show 59 < 10 ^ 2 by decide)
  second := paddedNumeral (by decide) (show 59 < 10 ^ 2 by decide)
  fraction := fractionText 999999999
  nanos := 999999999
  isFraction := isFraction_fractionText (by decide)

/-- The leap day of 1900, a year that has none. -/
def leapDay1900 : DateText where
  year := paddedNumeral (by decide) (show 1900 < 10 ^ 4 by decide)
  month := paddedNumeral (by decide) (show 2 < 10 ^ 2 by decide)
  day := paddedNumeral (by decide) (show 29 < 10 ^ 2 by decide)

/-- The last nanosecond before 1970 is read, and a leap day that does not exist is not. -/
theorem ofText?_utc_before_epoch :
    (Timestamp.ofText? "\t1969-12-31T23:59:59.999999999 ").map Timestamp.nanos = some (-1) ∧
      ∀ n, (Timestamp.ofText? "1900-02-29").map Timestamp.nanos ≠ some n := by
  constructor
  · have read := (ofText?_utc dayBeforeEpoch (show allBlank ['\t'] by decide)
      (show allBlank [' '] by decide) (-1)).2 lastMoment (by decide) 'T' (by decide)
    have counted : DayCount dayBeforeEpoch.date (-1) := .previous (by decide) .epoch
    exact read.mpr ⟨⟨-1, counted, by decide, by decide, by decide⟩, by decide⟩
  · intro n read
    have blank : allBlank [] := rfl
    obtain ⟨⟨days, counted, -⟩, -⟩ := (ofText?_utc leapDay1900 blank blank n).1.mp read
    exact absurd (dayCount_iff.mp counted).1 (by decide)

end MetricRates.Time
