import Mathlib.Data.List.TakeDrop
import MetricRates.Number.Decimal

/-!
# Hyphenated texts are no numbers

A text of digits that goes on with a hyphen, such as a date, is read neither as an
integer nor as a floating point number.
-/

namespace MetricRates.Number

/-- What is read as digits has digits only. -/
theorem isDigit_of_readDigitsFrom {limit value result : Nat} {pastLimit : IntegerError}
    {cs : List Char} (read : readDigitsFrom limit value pastLimit cs = .ok result) :
    ∀ c ∈ cs, c.isDigit := by
  induction cs generalizing value with
  | nil => exact List.forall_mem_nil _
  | cons c rest ih =>
      unfold readDigitsFrom at read
      split at read
      · cases read
      · rename_i digit found
        have isDigit : c.isDigit := by
          unfold digitValue? at found
          split at found
          · assumption
          · cases found
        split at read
        · exact List.forall_mem_cons.mpr ⟨isDigit, ih read⟩
        · cases read

/-- A text that starts with a digit is an integer without sign. -/
theorem readInt_of_isDigit {c : Char} (digit : c.isDigit) (rest : List Char) :
    readInt (c :: rest) =
      Except.map (fun n : Nat => (n : Int))
        (readDigitsFrom 0x7FFFFFFFFFFFFFFF 0 .tooLarge (c :: rest)) := by
  rw [readInt.eq_def]
  split
  · contradiction
  · rename_i shape
    cases shape
    exact absurd digit (by decide)
  · rename_i shape
    cases shape
    exact absurd digit (by decide)
  · cases read : readDigitsFrom 0x7FFFFFFFFFFFFFFF 0 .tooLarge (c :: rest) <;>
      simp [readDigits, read, Except.map]

theorem splitSign_of_isDigit {c : Char} (digit : c.isDigit) (rest : List Char) :
    splitSign (c :: rest) = (false, c :: rest) := by
  unfold splitSign
  split
  · rename_i shape
    cases shape
    exact absurd digit (by decide)
  · rename_i shape
    cases shape
    exact absurd digit (by decide)
  · rfl

theorem toLower_of_isDigit {c : Char} (digit : c.isDigit) : c.toLower = c := by
  simp only [Char.isDigit, Bool.and_eq_true, decide_eq_true_eq] at digit
  exact dif_neg fun upper => absurd (UInt32.le_trans upper.1 digit.2) (by decide)

/-- A word does not start with a digit. -/
theorem readSpecial?_of_isDigit {c : Char} (digit : c.isDigit) (negative : Bool)
    (rest : List Char) : readSpecial? negative (c :: rest) = none := by
  have other (first : Char) (letter : first.isDigit = false) (more : List Char) :
      (c :: rest).map Char.toLower ≠ first :: more := by
    rw [List.map_cons, toLower_of_isDigit digit]
    intro same
    rw [(List.cons.inj same).1] at digit
    exact absurd (digit.symm.trans letter) nofun
  have n := other 'n' (by decide)
  have i := other 'i' (by decide)
  exact (if_neg (n _)).trans (if_neg (not_or.mpr ⟨i _, i _⟩))

/-- One or more digits and a hyphen at the start of a text. -/
def Hyphenated (cs : List Char) : Prop :=
  ∃ c digits rest, (∀ d ∈ c :: digits, d.isDigit) ∧ cs = c :: digits ++ '-' :: rest

namespace Hyphenated

variable {cs : List Char}

theorem readInt_ne_ok (text : Hyphenated cs) (n : Int) : readInt cs ≠ .ok n := by
  obtain ⟨c, digits, rest, allDigits, rfl⟩ := text
  rw [List.cons_append, readInt_of_isDigit (allDigits c List.mem_cons_self)]
  intro read
  cases digitsRead : readDigitsFrom 0x7FFFFFFFFFFFFFFF 0 .tooLarge
      (c :: (digits ++ '-' :: rest)) with
  | error cause => simp [digitsRead, Except.map] at read
  | ok result =>
      have hyphen := isDigit_of_readDigitsFrom digitsRead '-' (by simp)
      exact absurd hyphen (by decide)

theorem readUnsignedDecimal?_eq_none (text : Hyphenated cs) (negative : Bool) :
    readUnsignedDecimal? negative cs = none := by
  obtain ⟨c, digits, rest, allDigits, rfl⟩ := text
  have spanned : spanDigits (c :: digits ++ '-' :: rest) = (c :: digits, '-' :: rest) := by
    rw [spanDigits, List.span_eq_takeWhile_dropWhile, List.takeWhile_append_of_pos allDigits,
      List.dropWhile_append_of_pos allDigits]
    simp
  rw [readUnsignedDecimal?, spanned]
  simp [readExponent?]

theorem readFloat?_eq_none (text : Hyphenated cs) : readFloat? cs = none := by
  have undecided := text.readUnsignedDecimal?_eq_none false
  obtain ⟨c, digits, rest, allDigits, rfl⟩ := text
  have digit := allDigits c List.mem_cons_self
  rw [List.cons_append] at undecided ⊢
  simp only [readFloat?, readNumberText?, splitSign_of_isDigit digit, undecided,
    readSpecial?_of_isDigit digit, Option.map_none]

end Hyphenated

end MetricRates.Number
