import MetricRates.Proofs.Number.Hyphenated
import MetricRates.Proofs.Text.Trimmed
import MetricRates.Proofs.Time.Digits

/-!
# Texts of dates and times of day

A date is a year of four digits, a month and a day, parted by hyphens; a time of day is an
hour, a minute and a second, parted by colons, and a fraction.  Each of the readers takes
its parts out of such a text, whether or not the date and the time exist.
-/

namespace MetricRates.Time

open Text Number

/-- The numerals of a date in the form `YYYY-MM-DD`. -/
structure DateText where
  year : Numeral 4
  month : Numeral 2
  day : Numeral 2

/-- The numerals of a time of day in the form `HH:MM:SS`, and the fraction behind it. -/
structure ClockText where
  hour : Numeral 2
  minute : Numeral 2
  second : Numeral 2
  fraction : List Char
  nanos : Nat
  isFraction : IsFraction fraction nanos

namespace DateText

/-- The characters of a date. -/
def chars (text : DateText) : List Char :=
  text.year.digits ++ '-' :: (text.month.digits ++ '-' :: text.day.digits)

/-- The date that a text denotes. -/
def date (text : DateText) : Date :=
  ⟨text.year.value, text.month.value, text.day.value⟩

end DateText

namespace ClockText

/-- The characters of a time of day. -/
def chars (text : ClockText) : List Char :=
  text.hour.digits ++ ':' :: (text.minute.digits ++ ':' :: (text.second.digits ++ text.fraction))

/-- The time of day that a text denotes. -/
def time (text : ClockText) : TimeOfDay :=
  ⟨text.hour.value, text.minute.value, text.second.value, text.nanos⟩

end ClockText

/-! ## Characters -/

/-- A digit or one of the marks between the parts of a written instant. -/
def IsInstantChar (c : Char) : Prop :=
  c.isDigit ∨ c ∈ ['-', 'T', ':', '.', '+', 'Z']

theorem isBlank_of_isInstantChar {c : Char} (inText : IsInstantChar c) : isBlank c = false := by
  rcases inText with digit | mark
  · exact isBlank_of_isDigit digit
  · have solid : ['-', 'T', ':', '.', '+', 'Z'].all (fun c => !isBlank c) = true := by decide
    simpa using List.all_eq_true.mp solid c mark

theorem solidEnds_of_isInstantChar {cs : List Char} (inText : ∀ c ∈ cs, IsInstantChar c) :
    SolidEnds cs :=
  solidEnds_of_solid fun c member => isBlank_of_isInstantChar (inText c member)

theorem isInstantChar_digits {width : Nat} (numeral : Numeral width) :
    ∀ c ∈ numeral.digits, IsInstantChar c :=
  fun c member => .inl (numeral.isDigit c member)

theorem IsFraction.isInstantChar {fraction : List Char} {nanos : Nat}
    (isFraction : IsFraction fraction nanos) : ∀ c ∈ fraction, IsInstantChar c := by
  cases isFraction with
  | none => exact List.forall_mem_nil _
  | digits numeral =>
      exact List.forall_mem_cons.mpr ⟨.inr (by decide), isInstantChar_digits numeral⟩

theorem DateText.isInstantChar (text : DateText) : ∀ c ∈ text.chars, IsInstantChar c := by
  have hyphen : IsInstantChar '-' := .inr (by decide)
  simp only [chars, List.forall_mem_append, List.forall_mem_cons]
  exact ⟨isInstantChar_digits _, hyphen, isInstantChar_digits _, hyphen, isInstantChar_digits _⟩

theorem ClockText.isInstantChar (text : ClockText) : ∀ c ∈ text.chars, IsInstantChar c := by
  have colon : IsInstantChar ':' := .inr (by decide)
  simp only [chars, List.forall_mem_append, List.forall_mem_cons]
  exact ⟨isInstantChar_digits _, colon, isInstantChar_digits _, colon, isInstantChar_digits _,
    text.isFraction.isInstantChar⟩

theorem DateText.chars_ne_nil (text : DateText) : text.chars ≠ [] := by
  simp [chars]

theorem ClockText.chars_ne_nil (text : ClockText) : text.chars ≠ [] := by
  simp [chars]

/-- A date starts with a year and a hyphen, so what starts with a date is no number. -/
theorem DateText.hyphenated (text : DateText) (rest : List Char) :
    Hyphenated (text.chars ++ rest) := by
  obtain ⟨c, digits, year, allDigits⟩ := text.year.exists_digits_eq_cons
  rw [chars, year]
  exact ⟨c, digits, _, allDigits, List.append_assoc ..⟩

/-! ## Reading RFC 3339 -/

variable (date : DateText) (clock : ClockText)

/-- A date and a time of day are read, and then the zone behind them. -/
theorem readInstant?_chars {mark : Char} (parts : mark = 'T' ∨ mark = 't' ∨ mark = ' ')
    {zone : List Char} (ends : EndsNumber zone) (pointless : zone.head? ≠ some '.') :
    readInstant? (date.chars ++ mark :: (clock.chars ++ zone)) =
      (readOffset? zone).bind fun read =>
        if !read.2.isEmpty then none
        else (instant? date.date clock.time).map fun utc => utc - read.1 * 60000000000 := by
  simp only [DateText.chars, ClockText.chars, List.append_assoc, List.cons_append]
  -- Each reader takes its part of the text and leaves the rest to the next one.
  refine (bind_of_eq_some (readNumber?_digits date.year (Nat.le_refl 4) _) _).trans ?_
  refine (bind_of_eq_some (readChar?_cons '-' _) _).trans ?_
  refine (bind_of_eq_some (readNumber?_digits date.month (Nat.le_refl 2) _) _).trans ?_
  refine (bind_of_eq_some (readChar?_cons '-' _) _).trans ?_
  refine (bind_of_eq_some (readNumber?_digits date.day (Nat.le_refl 2) _) _).trans ?_
  refine (if_pos parts).trans ((bind_of_eq_some rfl _).trans ?_)
  refine (bind_of_eq_some (readNumber?_digits clock.hour (Nat.le_refl 2) _) _).trans ?_
  refine (bind_of_eq_some (readChar?_cons ':' _) _).trans ?_
  refine (bind_of_eq_some (readNumber?_digits clock.minute (Nat.le_refl 2) _) _).trans ?_
  refine (bind_of_eq_some (readChar?_cons ':' _) _).trans ?_
  refine (bind_of_eq_some (readNumber?_digits clock.second (Nat.le_refl 2) _) _).trans ?_
  refine (bind_of_eq_some (clock.isFraction.read ends pointless) _).trans ?_
  refine bind_congr fun read => ?_
  by_cases whole : read.2.isEmpty
  · simp only [whole]
    exact (Option.map_eq_bind ..).symm
  · simp only [whole]
    rfl

/-- A date alone has no time of day behind it. -/
theorem readInstant?_date : readInstant? date.chars = none := by
  have day := readNumber?_digits date.day (Nat.le_refl 2) []
  rw [List.append_nil] at day
  simp only [DateText.chars]
  refine (bind_of_eq_some (readNumber?_digits date.year (Nat.le_refl 4) _) _).trans ?_
  refine (bind_of_eq_some (readChar?_cons '-' _) _).trans ?_
  refine (bind_of_eq_some (readNumber?_digits date.month (Nat.le_refl 2) _) _).trans ?_
  refine (bind_of_eq_some (readChar?_cons '-' _) _).trans ?_
  exact bind_of_eq_some day _

/-! ## Reading without offset -/

section Loose

variable {width : Nat} (numeral : Numeral (width + 1)) (rest : List Char)

theorem trimStart_digits : trimStart (numeral.digits ++ rest) = numeral.digits ++ rest := by
  obtain ⟨c, digits, shape, allDigits⟩ := numeral.exists_digits_eq_cons
  have solid := isBlank_of_isDigit (allDigits c List.mem_cons_self)
  simp [shape, trimStart, solid]

/-- A numeral of the greatest width that is read is read back after blanks. -/
theorem readLooseNumber?_digits {blanks : List Char} (blank : allBlank blanks) :
    readLooseNumber? (width + 1) (blanks ++ (numeral.digits ++ rest)) =
      some (numeral.value, rest) := by
  rw [readLooseNumber?, trimStart_append blank, trimStart_digits,
    readNumber?_digits numeral (Nat.le_add_left 1 width)]

end Loose

theorem readYear?_digits (year : Numeral 4) (rest : List Char) :
    readYear? (year.digits ++ rest) = some ((year.value : Int), rest) := by
  have read := readNumber?_digits year (show 1 ≤ 4 by decide) rest
  have notSigned {mark : Char} (noDigit : mark.isDigit = false) (after : List Char) :
      year.digits ++ rest ≠ mark :: after := by
    obtain ⟨c, digits, shape, allDigits⟩ := year.exists_digits_eq_cons
    intro same
    rw [shape] at same
    have digit := allDigits c List.mem_cons_self
    rw [(List.cons.inj same).1, noDigit] at digit
    cases digit
  rw [readYear?, trimStart_digits]
  split
  · rename_i after shape
    exact absurd shape (notSigned (by decide) after)
  · rename_i after shape
    exact absurd shape (notSigned (by decide) after)
  · rw [read]
    rfl

/-- A date is read in front of anything. -/
theorem readDate?_chars (rest : List Char) :
    readDate? (date.chars ++ rest) = some (date.date, rest) := by
  have noBlank : allBlank [] := rfl
  simp only [DateText.chars, List.append_assoc, List.cons_append]
  refine (bind_of_eq_some (readYear?_digits date.year _) _).trans ?_
  refine (bind_of_eq_some (readChar?_cons '-' _) _).trans ?_
  refine (bind_of_eq_some (readLooseNumber?_digits date.month _ noBlank) _).trans ?_
  refine (bind_of_eq_some (readChar?_cons '-' _) _).trans ?_
  exact bind_of_eq_some (readLooseNumber?_digits date.day _ noBlank) _

theorem readDate?_date : readDate? date.chars = some (date.date, []) := by
  have read := readDate?_chars date []
  rwa [List.append_nil] at read

/-- A time of day is read after blanks. -/
theorem readTimeOfDay?_chars {blanks : List Char} (blank : allBlank blanks) :
    readTimeOfDay? (blanks ++ clock.chars) = some (clock.time, []) := by
  have noBlank : allBlank [] := rfl
  have nothing : EndsNumber [] := nofun
  have fraction := clock.isFraction.read nothing nofun
  rw [List.append_nil] at fraction
  rw [ClockText.chars]
  refine (bind_of_eq_some (readLooseNumber?_digits clock.hour _ blank) _).trans ?_
  refine (bind_of_eq_some (readChar?_cons ':' _) _).trans ?_
  refine (bind_of_eq_some (readLooseNumber?_digits clock.minute _ noBlank) _).trans ?_
  refine (bind_of_eq_some (readChar?_cons ':' _) _).trans ?_
  refine (bind_of_eq_some (readLooseNumber?_digits clock.second _ noBlank) _).trans ?_
  exact bind_of_eq_some fraction _

end MetricRates.Time
