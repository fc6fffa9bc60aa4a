import MetricRates.Number.Integer

/-!
# Numerals

A numeral is a row of digits, and its value is read in base ten.  What reads digits takes
a numeral whole, and refuses it only where its value is past the limit.
-/

namespace MetricRates.Number

/-- A row of digits of a given width. -/
structure Numeral (width : Nat) where
  digits : List Char
  length_digits : digits.length = width
  isDigit : ∀ c ∈ digits, c.isDigit

/-- The value of a numeral in base ten. -/
def Numeral.value {width : Nat} (numeral : Numeral width) : Nat :=
  Nat.ofDigitChars 10 numeral.digits 0

/-- A numeral of some width starts with a digit. -/
theorem Numeral.exists_digits_eq_cons {width : Nat} (numeral : Numeral (width + 1)) :
    ∃ c digits, numeral.digits = c :: digits ∧ ∀ d ∈ c :: digits, d.isDigit := by
  obtain ⟨digits, length, allDigits⟩ := numeral
  cases digits with
  | nil => cases length
  | cons c digits => exact ⟨c, digits, rfl, allDigits⟩

theorem digitsValue_eq_ofDigitChars (digits : List Char) :
    digitsValue digits = Nat.ofDigitChars 10 digits 0 := by
  simp only [digitsValue, Nat.ofDigitChars, Nat.mul_comm]

@[simp]
theorem Numeral.digitsValue_digits {width : Nat} (numeral : Numeral width) :
    digitsValue numeral.digits = numeral.value :=
  digitsValue_eq_ofDigitChars _

/-- Digits that follow never make a value smaller. -/
theorem le_ofDigitChars (digits : List Char) (before : Nat) :
    before ≤ Nat.ofDigitChars 10 digits before := by
  rw [Nat.ofDigitChars_eq_ofDigitChars_zero]
  exact Nat.le_add_right_of_le (Nat.le_mul_of_pos_left _ (Nat.pow_pos (by decide)))

/-- Digits are read up to a limit on their value. -/
theorem readDigitsFrom_of_isDigit {limit before : Nat} {pastLimit : IntegerError}
    {digits : List Char} (allDigits : ∀ c ∈ digits, c.isDigit) (inLimit : before ≤ limit) :
    readDigitsFrom limit before pastLimit digits =
      if Nat.ofDigitChars 10 digits before ≤ limit then .ok (Nat.ofDigitChars 10 digits before)
      else .error pastLimit := by
  induction digits generalizing before with
  | nil => simp [inLimit]
  | cons c digits ih =>
      obtain ⟨digit, others⟩ := List.forall_mem_cons.mp allDigits
      have value : digitValue? c = some (c.toNat - '0'.toNat) := if_pos digit
      rw [readDigitsFrom, value, Nat.ofDigitChars_cons, Nat.mul_comm 10]
      simp only
      by_cases fits : before * 10 + (c.toNat - '0'.toNat) ≤ limit
      · rw [if_pos fits, ih others fits]
      · have past := le_ofDigitChars digits (before * 10 + (c.toNat - '0'.toNat))
        rw [if_neg fits, if_neg (by omega)]

theorem Numeral.readDigits_digits {width : Nat} (numeral : Numeral (width + 1)) (limit : Nat)
    (pastLimit : IntegerError) :
    readDigits limit pastLimit numeral.digits =
      if numeral.value ≤ limit then .ok numeral.value else .error pastLimit := by
  obtain ⟨c, digits, shape, allDigits⟩ := numeral.exists_digits_eq_cons
  rw [Numeral.value, shape]
  exact readDigitsFrom_of_isDigit allDigits (Nat.zero_le _)

end MetricRates.Number
