import MetricRates.Proofs.Time.Calendar
import MetricRates.Proofs.Time.DateText
import MetricRates.Proofs.Time.Forms

/-!
# Written instants are read back

An instant is written in UTC, or as the date and time of day at an offset from UTC.
The first reader to take such a text is that of RFC 3339, and it gives the instant
back.
-/

namespace MetricRates.Time

open Text Number

/-! ## Offsets -/

/-- A sign, hours and minutes are read as an offset. -/
theorem readOffset?_signed {mark : Char} (sign : mark = '+' ∨ mark = '-') {hours minutes : Nat}
    (inDay : hours ≤ 23) (inHour : minutes ≤ 59) :
    readOffset? (mark :: (padded 2 hours ++ ':' :: padded 2 minutes)) =
      some (if mark = '+' then (hours : Int) * 60 + minutes else -((hours : Int) * 60 + minutes),
        []) := by
  have signed : mark = '+' ∨ mark = '-' ∨ mark = '\u2212' := sign.imp_right .inl
  have notUtc : ¬ (mark = 'Z' ∨ mark = 'z') := by rcases sign with rfl | rfl <;> decide
  have last := readNumber?_padded (by decide) (show minutes < 10 ^ 2 by omega) []
  rw [List.append_nil] at last
  refine (if_neg notUtc).trans ((if_pos signed).trans ?_)
  refine (bind_of_eq_some (readNumber?_padded (by decide) (by omega) _) _).trans ?_
  refine (bind_of_eq_some (readChar?_cons ':' _) _).trans ?_
  refine (bind_of_eq_some last _).trans ?_
  exact if_neg (by omega)

/-- An offset from UTC of whole minutes, of less than a day. -/
structure UtcOffset where
  minutes : Int
  low : -1440 < minutes
  high : minutes < 1440

namespace UtcOffset

/-- The nanoseconds of an offset. -/
def nanos (offset : UtcOffset) : Int :=
  offset.minutes * 60000000000

/-- An offset in the form `+HH:MM` or `-HH:MM`. -/
def text (offset : UtcOffset) : List Char :=
  (if offset.minutes < 0 then '-' else '+') ::
    (padded 2 (offset.minutes.natAbs / 60) ++ ':' :: padded 2 (offset.minutes.natAbs % 60))

theorem readOffset?_text (offset : UtcOffset) :
    readOffset? offset.text = some (offset.minutes, []) := by
  obtain ⟨minutes, low, high⟩ := offset
  have hours : minutes.natAbs / 60 ≤ 23 := by omega
  have rest : minutes.natAbs % 60 ≤ 59 := by omega
  by_cases negative : minutes < 0
  · rw [text, if_pos negative, readOffset?_signed (.inr rfl) hours rest, if_neg (by decide)]
    simp only [Option.some.injEq, Prod.mk.injEq, and_true]
    omega
  · rw [text, if_neg negative, readOffset?_signed (.inl rfl) hours rest, if_pos rfl]
    simp only [Option.some.injEq, Prod.mk.injEq, and_true]
    omega

end UtcOffset

/-- The date and time of day of a timestamp at an offset from UTC, with the offset. -/
def Timestamp.textAt (offset : UtcOffset) (t : Timestamp) : String :=
  String.ofList (localText (t.nanos + offset.nanos) ++ offset.text)

/-! ## Reading dates and times -/

/-- A zone is read as an offset in minutes, and it ends the time of day before it. -/
structure IsZone (zone : List Char) (offset : Int) : Prop where
  read : readOffset? zone = some (offset, [])
  ends : EndsNumber zone
  pointless : zone.head? ≠ some '.'

theorem isZone_utc : IsZone ['Z'] 0 where
  read := rfl
  ends := by simp [EndsNumber]
  pointless := by decide

theorem UtcOffset.isZone_text (offset : UtcOffset) : IsZone offset.text offset.minutes where
  read := offset.readOffset?_text
  ends := by
    simp only [EndsNumber, text, List.head?_cons, Option.mem_some_iff]
    split <;> rintro _ rfl <;> decide
  pointless := by
    simp only [text, List.head?_cons]
    split <;> decide

/-- The time of day of some nanoseconds. -/
def TimeOfDay.ofNanos (nanosOfDay : Nat) : TimeOfDay where
  hour := nanosOfDay / 1000000000 / 3600
  minute := nanosOfDay / 1000000000 / 60 % 60
  second := nanosOfDay / 1000000000 % 60
  nanos := nanosOfDay % 1000000000

variable {nanosOfDay : Nat} {zone : List Char} {offset : Int}

/-- The instant of a date and a time of day counts both in nanoseconds. -/
theorem instant?_ofNanos {date : Date} (real : date.exists?)
    (inDay : nanosOfDay < 86400 * 1000000000) :
    instant? date (.ofNanos nanosOfDay) = some (date.dayNumber * nanosPerDay + nanosOfDay) := by
  have hour : (TimeOfDay.ofNanos nanosOfDay).hour ≤ 23 := by
    simp only [TimeOfDay.ofNanos]
    omega
  have minute : (TimeOfDay.ofNanos nanosOfDay).minute ≤ 59 := by
    simp only [TimeOfDay.ofNanos]
    omega
  have second : (TimeOfDay.ofNanos nanosOfDay).second ≤ 60 := by
    simp only [TimeOfDay.ofNanos]
    omega
  have occurs : (TimeOfDay.ofNanos nanosOfDay).exists? := by
    simp [TimeOfDay.exists?, hour, minute, second]
  rw [instant?, real, occurs, Bool.and_self, if_pos rfl]
  simp only [TimeOfDay.ofNanos, nanosPerDay, Option.some.injEq]
  omega

/-! ## The parts of a written instant -/

/-- The text of a date with a year of four digits has the numerals of the date. -/
theorem exists_dateText {date : Date} (fourDigits : 0 ≤ date.year ∧ date.year < 10000)
    (real : date.exists?) : ∃ text : DateText, text.chars = date.text ∧ text.date = date := by
  obtain ⟨year, month, day⟩ := date
  obtain ⟨inYear, firstDay, lastDay⟩ := exists_iff.mp real
  have days := daysInMonth_range year month
  simp only at fourDigits
  have yearFits : year.toNat < 10 ^ 4 := by omega
  have monthFits : month < 10 ^ 2 := by omega
  have dayFits : day < 10 ^ 2 := by omega
  refine ⟨⟨paddedNumeral (by decide) yearFits, paddedNumeral (by decide) monthFits,
    paddedNumeral (by decide) dayFits⟩, rfl, ?_⟩
  simp only [DateText.date, value_paddedNumeral, Int.toNat_of_nonneg fourDigits.1]

/-- The text of a time of day has the numerals of its hour, minute and second. -/
theorem exists_clockText (inDay : nanosOfDay < 86400 * 1000000000) :
    ∃ text : ClockText, text.chars = timeOfDayText nanosOfDay ∧
      text.time = .ofNanos nanosOfDay := by
  have hourFits : nanosOfDay / 1000000000 / 3600 < 10 ^ 2 := by omega
  have minuteFits : nanosOfDay / 1000000000 / 60 % 60 < 10 ^ 2 := by omega
  have secondFits : nanosOfDay / 1000000000 % 60 < 10 ^ 2 := by omega
  have inSecond : nanosOfDay % 1000000000 < 1000000000 := by omega
  refine ⟨⟨paddedNumeral (by decide) hourFits, paddedNumeral (by decide) minuteFits,
    paddedNumeral (by decide) secondFits, _, _, isFraction_fractionText inSecond⟩, rfl, ?_⟩
  simp only [ClockText.time, TimeOfDay.ofNanos, value_paddedNumeral]

/-- The nanoseconds whose dates have years of four digits. -/
def HasFourDigitYear (nanos : Int) : Prop :=
  0 ≤ nanos / nanosPerDay + epochFromMarchZero ∧
    nanos / nanosPerDay + epochFromMarchZero < 24 * 146097

/-- The nanoseconds of a timestamp have years of four digits at any offset. -/
theorem hasFourDigitYear_at (t : Timestamp) (inRange : -1440 < offset ∧ offset < 1440) :
    HasFourDigitYear (t.nanos + offset * 60000000000) := by
  have low := t.minNanos_le
  have high := t.le_maxNanos
  unfold HasFourDigitYear nanosPerDay epochFromMarchZero
  unfold minNanos at low
  unfold maxNanos at high
  omega

/-- The date and time of some nanoseconds have the form of a date and a time of day, and
together they are the instant of these nanoseconds. -/
theorem exists_parts_localText {nanos : Int} (fourDigits : HasFourDigitYear nanos) :
    ∃ (date : DateText) (clock : ClockText), localText nanos = date.chars ++ 'T' :: clock.chars ∧
      instant? date.date clock.time = some nanos := by
  have inDay : (nanos % nanosPerDay).toNat < 86400 * 1000000000 := by
    unfold nanosPerDay
    omega
  have whole : nanos / nanosPerDay * nanosPerDay + ((nanos % nanosPerDay).toNat : Int) = nanos := by
    unfold nanosPerDay
    omega
  have real := exists_ofDayNumber (nanos / nanosPerDay)
  obtain ⟨date, dateChars, dateValue⟩ :=
    exists_dateText (year_ofDayNumber_range fourDigits.1 fourDigits.2) real
  obtain ⟨clock, clockChars, clockValue⟩ := exists_clockText inDay
  refine ⟨date, clock, ?_, ?_⟩
  · rw [localText, dateChars, clockChars]
  · rw [dateValue, clockValue, instant?_ofNanos real inDay, dayNumber_ofDayNumber, whole]

theorem DateText.isInstantChar_clock (date : DateText) (clock : ClockText) :
    ∀ c ∈ date.chars ++ 'T' :: clock.chars, IsInstantChar c := by
  have middle : IsInstantChar 'T' := .inr (by decide)
  simp only [List.forall_mem_append, List.forall_mem_cons]
  exact ⟨date.isInstantChar, middle, clock.isInstantChar⟩

theorem isInstantChar_text (t : Timestamp) : ∀ c ∈ t.text.toList, IsInstantChar c := by
  have fourDigits := hasFourDigitYear_at t (show -1440 < (0 : Int) ∧ (0 : Int) < 1440 by decide)
  rw [Int.zero_mul, Int.add_zero] at fourDigits
  obtain ⟨date, clock, parts, -⟩ := exists_parts_localText fourDigits
  rw [Timestamp.text, String.toList_ofList, parts, List.forall_mem_append]
  exact ⟨date.isInstantChar_clock clock, by simp [IsInstantChar]⟩

theorem UtcOffset.isInstantChar_text (offset : UtcOffset) :
    ∀ c ∈ offset.text, IsInstantChar c := by
  have sign : IsInstantChar (if offset.minutes < 0 then '-' else '+') := by
    split <;> exact .inr (by decide)
  have padded (n : Nat) : ∀ c ∈ padded 2 n, IsInstantChar c := fun _ member =>
    .inl (isDigit_of_mem_padded member)
  simp only [text, List.forall_mem_append, List.forall_mem_cons]
  exact ⟨sign, padded _, .inr (by decide), padded _⟩

/-- A date and time with a zone is read as the instant that it is at. -/
theorem ofText?_localText (t : Timestamp) (inRange : -1440 < offset ∧ offset < 1440)
    (isZone : IsZone zone offset) (inText : ∀ c ∈ zone, IsInstantChar c) :
    Timestamp.ofText? (String.ofList (localText (t.nanos + offset * 60000000000) ++ zone)) =
      some t := by
  obtain ⟨date, clock, parts, instant⟩ := exists_parts_localText (hasFourDigitYear_at t inRange)
  have solid : ∀ c ∈ date.chars ++ 'T' :: clock.chars ++ zone, IsInstantChar c :=
    List.forall_mem_append.mpr ⟨date.isInstantChar_clock clock, inText⟩
  have read : readInstant? (date.chars ++ 'T' :: (clock.chars ++ zone)) = some t.nanos := by
    rw [readInstant?_chars date clock (.inl rfl) isZone.ends isZone.pointless, isZone.read,
      Option.bind_some, if_neg (by simp), instant, Option.map_some, Int.add_sub_cancel]
  rw [parts, ofText?_of_solidEnds (solidEnds_of_isInstantChar solid), List.append_assoc,
    List.cons_append, readTrimmedTime?_of_hyphenated (date.hyphenated _), read, Option.some_or,
    Option.bind_some, Timestamp.ofNanos?_nanos]

/-- A timestamp that is written in UTC or at any offset from it is read back. -/
theorem ofText?_written (t : Timestamp) :
    Timestamp.ofText? t.text = some t ∧
      ∀ offset : UtcOffset, Timestamp.ofText? (t.textAt offset) = some t := by
  constructor
  · have utc := ofText?_localText t (by decide) isZone_utc (by simp [IsInstantChar])
    rwa [Int.zero_mul, Int.add_zero] at utc
  · intro offset
    exact ofText?_localText t ⟨offset.low, offset.high⟩ offset.isZone_text
      offset.isInstantChar_text

/-- The first timestamp of all, at the westernmost offset, has the date of the day
before. -/
example : (Timestamp.clamp minNanos).textAt ⟨-1439, by decide, by decide⟩ =
    "1677-09-20T00:13:43.145224192-23:59" := by decide +kernel

end MetricRates.Time
