import MetricRates.Proofs.Number.Bounds
import MetricRates.Proofs.Number.IntegerText
import MetricRates.Proofs.Time.Forms

/-!
# Times written as integers

A text of an integer is the time with as many nanoseconds, whatever blanks stand around
it, and it is no time where the integer does not fit.  There it is read as a floating
point number as well, but this is refused for its size: neither rounding nor a bound of
the range ever stands in for the integer.
-/

namespace MetricRates.Time

open Text Number

variable {integer : IntegerText}

theorem isBlank_of_mem_chars : ∀ c ∈ integer.chars, isBlank c = false := by
  obtain ⟨sign, width, numeral⟩ := integer
  have digits : ∀ c ∈ numeral.digits, isBlank c = false := fun c member =>
    isBlank_of_isDigit (numeral.isDigit c member)
  cases sign with
  | none => exact digits
  | plus => exact List.forall_mem_cons.mpr ⟨by decide, digits⟩
  | minus => exact List.forall_mem_cons.mpr ⟨by decide, digits⟩

/-- An integer that does not fit has at least the size of the first one above the range. -/
theorem le_value_of_not_fitsWord (large : ¬ FitsWord integer.value) :
    2 ^ 63 ≤ integer.numeral.value := by
  have size := integer.natAbs_value
  unfold FitsWord at large
  omega

/-- A number is refused as a number of nanoseconds when it is not below the bound. -/
theorem nanosOfFloat?_eq_none {x : Float} (large : ¬ x.abs < maxFractionalNanos) :
    nanosOfFloat? x = none := by
  simp [nanosOfFloat?, large]

/-- The number that an integer that does not fit is taken for gives no nanoseconds. -/
theorem exists_refused_number (large : ¬ FitsWord integer.value) :
    ∃ x, readFloat? integer.chars = some x ∧ nanosOfFloat? x = none :=
  ⟨_, integer.readFloat?_chars,
    nanosOfFloat?_eq_none (not_abs_toFloat_lt_bound (le_value_of_not_fitsWord large) _)⟩

theorem readInt_ne_ok_of_not_fitsWord (large : ¬ FitsWord integer.value) (n : Int) :
    readInt integer.chars ≠ .ok n := by
  rw [ne_eq, IntegerText.readInt_chars_eq_ok_iff]
  rintro ⟨rfl, fits⟩
  exact large fits

theorem readTrimmedTime?_of_fitsWord (fits : FitsWord integer.value) :
    ∃ t, readTrimmedTime? integer.chars = some t ∧ t.nanos = integer.value := by
  have read : readInt integer.chars = .ok integer.value :=
    IntegerText.readInt_chars_eq_ok_iff.mpr ⟨rfl, fits⟩
  rw [readTrimmedTime?_of_readInt read]
  exact ⟨⟨integer.value, fits.1, Int.le_of_lt_add_one fits.2⟩,
    Timestamp.ofNanos?_eq_some_iff.mpr rfl, rfl⟩

/-- A text of an integer is read as that number of nanoseconds exactly, if it fits, and is
refused otherwise, since the number that it is then taken for gives no nanoseconds. -/
theorem ofText?_integer (integer : IntegerText) {before after : List Char}
    (blankBefore : allBlank before) (blankAfter : allBlank after) :
    let text := String.ofList (before ++ integer.chars ++ after)
    (FitsWord integer.value →
      ∃ t, Timestamp.ofText? text = some t ∧ t.nanos = integer.value) ∧
    (¬ FitsWord integer.value →
      Timestamp.ofText? text = none ∧ (∀ n, readInt integer.chars ≠ .ok n) ∧
        ∃ x, readFloat? integer.chars = some x ∧ nanosOfFloat? x = none) := by
  intro text
  have trimmed : Timestamp.ofText? text = readTrimmedTime? integer.chars := by
    rw [ofText?_surrounded blankBefore blankAfter,
      ofText?_of_solidEnds (solidEnds_of_solid isBlank_of_mem_chars)]
  rw [trimmed]
  constructor
  · exact readTrimmedTime?_of_fitsWord
  · intro large
    have noInteger := readInt_ne_ok_of_not_fitsWord large
    obtain ⟨x, read, refused⟩ := exists_refused_number large
    refine ⟨?_, noInteger, x, read, refused⟩
    rw [readTrimmedTime?_of_readFloat? noInteger read, refused]
    rfl

/-- The digits of the first integer above the range, which are those of the first integer
in it. -/
def rangeEnd : Numeral 19 where
  digits := ['9', '2', '2', '3', '3', '7', '2', '0', '3', '6', '8', '5', '4', '7', '7', '5', '8',
    '0', '8']
  length_digits := rfl
  isDigit := List.all_eq_true.mp rfl

/-- The first integer of the range is read, and the first one above it is no time. -/
theorem ofText?_integer_rangeEnd :
    (∃ t, Timestamp.ofText? "-9223372036854775808\n" = some t ∧
      t.nanos = -9223372036854775808) ∧
    Timestamp.ofText? "\t+9223372036854775808" = none := by
  have first := ofText?_integer ⟨.minus, 18, rangeEnd⟩ (show allBlank [] by decide)
    (show allBlank ['\n'] by decide)
  have past := ofText?_integer ⟨.plus, 18, rangeEnd⟩ (show allBlank ['\t'] by decide)
    (show allBlank [] by decide)
  exact ⟨first.1 (by decide), (past.2 (by decide)).1⟩

end MetricRates.Time
