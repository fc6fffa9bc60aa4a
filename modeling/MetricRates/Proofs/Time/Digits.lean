import Mathlib.Algebra.Group.Nat.Defs
import MetricRates.Proofs.Number.Numeral
import MetricRates.Time.Reading

/-!
# Numbers of fixed width

A numeral is read back from as many digits as it has, whatever follows them, and so is a
number that is written with leading zeros up to a width.  A fraction of a second of at
most nine digits is read back as nanoseconds unless a digit or a point follows.
-/

namespace MetricRates.Time

open Text Number

/-! ## Padded numbers -/

theorem digitsValue_zeros_append (count : Nat) (digits : List Char) :
    digitsValue (zeros count ++ digits) = digitsValue digits := by
  induction count with
  | zero => rfl
  | succ count ih => rw [← ih]; rfl

/-- A padded number has digits only. -/
theorem isDigit_of_mem_padded {width n : Nat} {c : Char} (member : c ∈ padded width n) :
    c.isDigit := by
  rcases List.mem_append.mp member with zero | digit
  · rw [List.eq_of_mem_replicate zero]
    decide
  · exact Nat.isDigit_of_mem_toDigits (by decide) (by decide) digit

theorem length_padded {width n : Nat} (positive : 0 < width) (fits : n < 10 ^ width) :
    (padded width n).length = width := by
  have short : (natDigits n).length ≤ width :=
    (Nat.length_toDigits_le_iff (by decide) positive).mpr fits
  rw [padded, List.length_append, zeros, List.length_replicate]
  omega

@[simp]
theorem digitsValue_padded (width n : Nat) : digitsValue (padded width n) = n := by
  rw [padded, digitsValue_zeros_append, digitsValue_eq_ofDigitChars, natDigits,
    Nat.ofDigitChars_ten_toDigits]

/-- The numeral of a number that is padded to a width. -/
def paddedNumeral {width n : Nat} (positive : 0 < width) (fits : n < 10 ^ width) :
    Numeral width where
  digits := padded width n
  length_digits := length_padded positive fits
  isDigit _ := isDigit_of_mem_padded

@[simp]
theorem value_paddedNumeral {width n : Nat} (positive : 0 < width) (fits : n < 10 ^ width) :
    (paddedNumeral positive fits).value = n :=
  (Numeral.digitsValue_digits _).symm.trans (digitsValue_padded width n)

/-! ## Reading numbers -/

/-- A number ends before what follows: this does not start with a digit. -/
def EndsNumber (rest : List Char) : Prop :=
  ∀ c ∈ rest.head?, c.isDigit = false

theorem EndsNumber.take {rest : List Char} (ends : EndsNumber rest) (count : Nat) :
    EndsNumber (rest.take count) := by
  cases count with
  | zero => exact nofun
  | succ count => simpa [EndsNumber, List.head?_take] using ends

theorem takeWhile_isDigit_of_ends {rest : List Char} (ends : EndsNumber rest) :
    rest.takeWhile Char.isDigit = [] := by
  cases rest with
  | nil => rfl
  | cons c rest => simp [ends c rfl]

theorem dropWhile_isDigit_of_ends {rest : List Char} (ends : EndsNumber rest) :
    rest.dropWhile Char.isDigit = rest := by
  cases rest with
  | nil => rfl
  | cons c rest => simp [ends c rfl]

section Numerals

variable {width most : Nat} {rest : List Char} (numeral : Numeral width)

/-- The digits in front of what ends a numeral are those of the numeral. -/
theorem takeWhile_digits (enough : width ≤ most) (ends : EndsNumber (rest.take (most - width))) :
    ((numeral.digits ++ rest).take most).takeWhile Char.isDigit = numeral.digits := by
  have size := numeral.length_digits
  rw [List.take_append, List.take_of_length_le (by omega), size,
    List.takeWhile_append_of_pos numeral.isDigit, takeWhile_isDigit_of_ends ends, List.append_nil]

/-- A numeral is read back in front of what ends it. -/
theorem readNumber?_digits_of_ends {least : Nat} (least_le : least ≤ width)
    (enough : width ≤ most) (ends : EndsNumber (rest.take (most - width))) :
    readNumber? least most (numeral.digits ++ rest) = some (numeral.value, rest) := by
  have size := numeral.length_digits
  simp only [readNumber?, takeWhile_digits numeral enough ends]
  rw [if_neg (by omega), numeral.digitsValue_digits, List.drop_left]

/-- A numeral of the greatest width that is read is read back in front of anything. -/
theorem readNumber?_digits {least : Nat} (least_le : least ≤ width) (rest : List Char) :
    readNumber? least width (numeral.digits ++ rest) = some (numeral.value, rest) :=
  readNumber?_digits_of_ends numeral least_le (Nat.le_refl width) (by simp [EndsNumber])

end Numerals

/-- A number of a fixed width is read back in front of anything. -/
theorem readNumber?_padded {width n : Nat} (positive : 0 < width) (fits : n < 10 ^ width)
    (rest : List Char) : readNumber? width width (padded width n ++ rest) = some (n, rest) := by
  have read := readNumber?_digits (paddedNumeral positive fits) (Nat.le_refl width) rest
  rwa [value_paddedNumeral] at read

/-! ## Reading step by step -/

/-- A chain of readers goes on with what its first reader gives. -/
theorem bind_of_eq_some {α β : Type} {first : Option α} {a : α} (given : first = some a)
    (next : α → Option β) : first >>= next = next a := by
  rw [given]
  rfl

theorem readChar?_cons (c : Char) (rest : List Char) : readChar? c (c :: rest) = some rest := by
  simp [readChar?]

/-! ## Reading fractions -/

/-- A fraction of a second as it stands behind the seconds, with its nanoseconds: nothing,
or a point and one to nine digits. -/
inductive IsFraction : List Char → Nat → Prop
  | none : IsFraction [] 0
  | digits {width : Nat} (numeral : Numeral width) (positive : 0 < width) (short : width ≤ 9) :
      IsFraction ('.' :: numeral.digits) (numeral.value * 10 ^ (9 - width))

/-- A fraction is read back in front of what neither is a point nor goes on with a
digit. -/
theorem IsFraction.read {fraction rest : List Char} {nanos : Nat}
    (isFraction : IsFraction fraction nanos) (ends : EndsNumber rest)
    (pointless : rest.head? ≠ some '.') :
    readFraction? (fraction ++ rest) = some (nanos, rest) := by
  cases isFraction with
  | none =>
      rw [List.nil_append, readFraction?.eq_def]
      split
      · exact absurd rfl pointless
      · rfl
  | @digits width numeral positive short =>
      have digits := takeWhile_digits numeral short (ends.take (9 - width))
      have number := readNumber?_digits_of_ends numeral positive short (ends.take (9 - width))
      simp only [List.cons_append, readFraction?, digits, numeral.length_digits, number,
        Option.bind_eq_bind, Option.bind_some, dropWhile_isDigit_of_ends ends]
      rfl

theorem isFraction_padded {width n nanos : Nat} (positive : 0 < width) (short : width ≤ 9)
    (fits : n < 10 ^ width) (whole : n * 10 ^ (9 - width) = nanos) :
    IsFraction ('.' :: padded width n) nanos := by
  have isFraction := IsFraction.digits (paddedNumeral positive fits) positive short
  rwa [value_paddedNumeral, whole] at isFraction

/-- The fraction that is written for some nanoseconds stands for them. -/
theorem isFraction_fractionText {nanos : Nat} (inSecond : nanos < 1000000000) :
    IsFraction (fractionText nanos) nanos := by
  unfold fractionText
  split
  · rename_i whole
    subst whole
    exact .none
  · split
    · exact isFraction_padded (by decide) (by decide) (by omega) (by omega)
    · split
      · exact isFraction_padded (by decide) (by decide) (by omega) (by omega)
      · exact isFraction_padded (by decide) (by decide) (by omega) (by omega)

end MetricRates.Time
