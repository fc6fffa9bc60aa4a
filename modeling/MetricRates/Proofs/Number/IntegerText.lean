import Mathlib.Algebra.Group.Int.Defs
import Mathlib.Data.List.TakeWhile
import MetricRates.Proofs.Number.Hyphenated
import MetricRates.Proofs.Number.Numeral

/-!
# Texts of integers

An optional sign and one or more digits are read as the integer that they denote, if it
fits in 64 bits with sign, and are refused as an integer otherwise.  They are also read as
a number with the same sign and digits.
-/

namespace MetricRates.Number

/-- Whether an integer fits in 64 bits with sign. -/
def FitsWord (n : Int) : Prop :=
  -2 ^ 63 ≤ n ∧ n < 2 ^ 63

instance (n : Int) : Decidable (FitsWord n) :=
  inferInstanceAs (Decidable (-2 ^ 63 ≤ n ∧ n < 2 ^ 63))

/-- What may stand before the digits of an integer. -/
inductive IntegerSign where
  | none
  | plus
  | minus
  deriving DecidableEq

/-- The characters of a sign. -/
def IntegerSign.chars : IntegerSign → List Char
  | .none => []
  | .plus => ['+']
  | .minus => ['-']

/-- An optional sign and one or more digits. -/
structure IntegerText where
  sign : IntegerSign
  width : Nat
  numeral : Numeral (width + 1)

namespace IntegerText

/-- The characters of a text of an integer. -/
def chars (text : IntegerText) : List Char :=
  text.sign.chars ++ text.numeral.digits

/-- The integer that a text denotes. -/
def value (text : IntegerText) : Int :=
  match text.sign with
  | .none | .plus => text.numeral.value
  | .minus => -text.numeral.value

theorem natAbs_value (text : IntegerText) : text.value.natAbs = text.numeral.value := by
  obtain ⟨sign, width, numeral⟩ := text
  cases sign with
  | none => exact Int.natAbs_natCast _
  | plus => exact Int.natAbs_natCast _
  | minus => exact (Int.natAbs_neg _).trans (Int.natAbs_natCast _)

theorem readInt_digits {width : Nat} (numeral : Numeral (width + 1)) :
    readInt numeral.digits =
      (readDigits 0x7FFFFFFFFFFFFFFF .tooLarge numeral.digits).map fun n : Nat => (n : Int) := by
  obtain ⟨c, digits, shape, allDigits⟩ := numeral.exists_digits_eq_cons
  rw [shape]
  exact readInt_of_isDigit (allDigits c List.mem_cons_self) digits

theorem readInt_plus (digits : List Char) :
    readInt ('+' :: digits) =
      (readDigits 0x7FFFFFFFFFFFFFFF .tooLarge digits).map fun n : Nat => (n : Int) := by
  rw [readInt]
  cases readDigits 0x7FFFFFFFFFFFFFFF .tooLarge digits <;> rfl

theorem readInt_minus (digits : List Char) :
    readInt ('-' :: digits) =
      (readDigits 0x8000000000000000 .tooSmall digits).map fun n : Nat => -(n : Int) := by
  rw [readInt]
  cases readDigits 0x8000000000000000 .tooSmall digits <;> rfl

theorem map_readDigits_eq_ok_iff {width : Nat} {numeral : Numeral (width + 1)} {limit : Nat}
    {pastLimit : IntegerError} {signed : Nat → Int} {n : Int} :
    (readDigits limit pastLimit numeral.digits).map signed = .ok n ↔
      numeral.value ≤ limit ∧ signed numeral.value = n := by
  rw [numeral.readDigits_digits]
  by_cases fits : numeral.value ≤ limit <;> simp [fits, Except.map]

/-- A text is read as an integer exactly when the integer that it denotes fits. -/
theorem readInt_chars_eq_ok_iff {text : IntegerText} {n : Int} :
    readInt text.chars = .ok n ↔ text.value = n ∧ FitsWord n := by
  obtain ⟨sign, width, numeral⟩ := text
  unfold FitsWord
  cases sign with
  | none =>
      change readInt numeral.digits = .ok n ↔ (numeral.value : Int) = n ∧ _
      rw [readInt_digits, map_readDigits_eq_ok_iff]
      omega
  | plus =>
      change readInt ('+' :: numeral.digits) = .ok n ↔ (numeral.value : Int) = n ∧ _
      rw [readInt_plus, map_readDigits_eq_ok_iff]
      omega
  | minus =>
      change readInt ('-' :: numeral.digits) = .ok n ↔ -(numeral.value : Int) = n ∧ _
      rw [readInt_minus, map_readDigits_eq_ok_iff]
      omega

theorem splitSign_chars (text : IntegerText) :
    splitSign text.chars = (decide (text.sign = .minus), text.numeral.digits) := by
  obtain ⟨sign, width, numeral⟩ := text
  cases sign with
  | none =>
      obtain ⟨c, digits, shape, allDigits⟩ := numeral.exists_digits_eq_cons
      change splitSign numeral.digits = (false, numeral.digits)
      rw [shape]
      exact splitSign_of_isDigit (allDigits c List.mem_cons_self) digits
  | plus => rfl
  | minus => rfl

theorem readUnsignedDecimal?_digits {width : Nat} (numeral : Numeral (width + 1))
    (negative : Bool) :
    readUnsignedDecimal? negative numeral.digits = some ⟨negative, numeral.value, 0⟩ := by
  have spanned : spanDigits numeral.digits = (numeral.digits, []) := by
    have all := numeral.isDigit
    rw [spanDigits, List.span_eq_takeWhile_dropWhile, List.dropWhile_eq_nil_iff.mpr all]
    rw [List.takeWhile_eq_self_iff.mpr all]
  have someDigit : numeral.digits.isEmpty = false := by
    obtain ⟨c, digits, shape, -⟩ := numeral.exists_digits_eq_cons
    rw [shape]
    rfl
  simp [readUnsignedDecimal?, spanned, someDigit, readExponent?]

/-- A text is read as a number with its sign and digits. -/
theorem readFloat?_chars (text : IntegerText) :
    readFloat? text.chars =
      some (Decimal.toFloat ⟨decide (text.sign = .minus), text.numeral.value, 0⟩) := by
  simp [readFloat?, readNumberText?, splitSign_chars, readUnsignedDecimal?_digits,
    NumberText.toFloat]

end IntegerText

end MetricRates.Number
