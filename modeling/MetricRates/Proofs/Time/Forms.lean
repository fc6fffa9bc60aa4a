import MetricRates.Proofs.Number.Hyphenated
import MetricRates.Proofs.Text.Trimmed
import MetricRates.Time.Reading

/-!
# The form of a time text

Blanks around a time text do not count.  What is left is a number of nanoseconds when it
can be read as an integer or else as a floating point number, and a text that starts as a
date does is neither, so it has one of the forms of dates and times.
-/

namespace MetricRates.Time

open Text Number

variable {cs : List Char}

/-! ## Blanks -/

theorem ofText?_of_solidEnds (solid : SolidEnds cs) :
    Timestamp.ofText? (String.ofList cs) = readTrimmedTime? cs := by
  rw [Timestamp.ofText?, String.toList_ofList, solid.trimChars_eq]

/-- Blanks around a text do not count when it is read as a time. -/
theorem ofText?_surrounded {before after : List Char} (blankBefore : allBlank before)
    (blankAfter : allBlank after) (cs : List Char) :
    Timestamp.ofText? (String.ofList (before ++ cs ++ after)) =
      Timestamp.ofText? (String.ofList cs) := by
  simp only [Timestamp.ofText?, String.toList_ofList, trimChars_surrounded blankBefore blankAfter]

/-! ## Numbers and dates -/

theorem readTrimmedTime?_of_readInt {n : Int} (read : readInt cs = .ok n) :
    readTrimmedTime? cs = Timestamp.ofNanos? n := by
  rw [readTrimmedTime?, read]

theorem readTrimmedTime?_of_readFloat? {x : Float} (noInteger : ∀ n, readInt cs ≠ .ok n)
    (read : readFloat? cs = some x) :
    readTrimmedTime? cs = (nanosOfFloat? x).bind Timestamp.ofNanos? := by
  unfold readTrimmedTime?
  split
  · rename_i n integer
    exact absurd integer (noInteger n)
  · rw [read]

/-- A text that starts with digits and a hyphen is read as a date, with or without a time
of day. -/
theorem readTrimmedTime?_of_hyphenated (text : Hyphenated cs) :
    readTrimmedTime? cs = ((readInstant? cs).or ((readDateTime? cs).or (readMidnight? cs))).bind
      Timestamp.ofNanos? := by
  unfold readTrimmedTime?
  split
  · rename_i n integer
    exact absurd integer (text.readInt_ne_ok n)
  · rw [text.readFloat?_eq_none]

end MetricRates.Time
