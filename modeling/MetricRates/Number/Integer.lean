import MetricRates.Text.Blank

/-!
# Reading integers

An integer text is an optional sign and one or more decimal digits.  Reading
goes from left to right and stops at the first fault: a character that is no
digit, or a digit that takes the value past the limit.  The causes are kept
apart, because each has a message of its own.
-/

namespace MetricRates.Number

/-- Why a text is not an integer of the wanted range. -/
inductive IntegerError where
  | empty
  | invalidDigit
  | tooLarge
  | tooSmall
  deriving DecidableEq, Repr

/-- The message for a rejected integer text. -/
def IntegerError.message : IntegerError → String
  | .empty => "cannot parse integer from empty string"
  | .invalidDigit => "invalid digit found in string"
  | .tooLarge => "number too large to fit in target type"
  | .tooSmall => "number too small to fit in target type"

/-- The value of a decimal digit. -/
def digitValue? (c : Char) : Option Nat :=
  if c.isDigit then some (c.toNat - '0'.toNat) else none

/-- The value of a text of decimal digits; other characters count as they
stand after `'0'`. -/
def digitsValue (digits : List Char) : Nat :=
  digits.foldl (fun value c => value * 10 + (c.toNat - '0'.toNat)) 0

/-- Read digits after the value `value`, never going past `limit`. -/
def readDigitsFrom (limit value : Nat) (pastLimit : IntegerError) :
    List Char → Except IntegerError Nat
  | [] => .ok value
  | c :: rest =>
      match digitValue? c with
      | none => .error .invalidDigit
      | some digit =>
          if value * 10 + digit ≤ limit then
            readDigitsFrom limit (value * 10 + digit) pastLimit rest
          else
            .error pastLimit

@[simp]
theorem readDigitsFrom_nil (limit value : Nat) (pastLimit : IntegerError) :
    readDigitsFrom limit value pastLimit [] = .ok value := rfl

/-- Read one or more digits as a number of at most `limit`. -/
def readDigits (limit : Nat) (pastLimit : IntegerError) : List Char → Except IntegerError Nat
  | [] => .error .invalidDigit
  | digits => readDigitsFrom limit 0 pastLimit digits

/-- The largest natural number of a machine word. -/
def maxWord : Nat := UInt64.size - 1

/-- Read a natural number of at most `limit`; a plus sign may stand first. -/
def readNat (limit : Nat) : List Char → Except IntegerError Nat
  | [] => .error .empty
  | '+' :: digits => readDigits limit .tooLarge digits
  | digits => readDigits limit .tooLarge digits

/-- Read an integer of at least `-2 ^ 63` and less than `2 ^ 63`, with an
optional sign. -/
def readInt : List Char → Except IntegerError Int
  | [] => .error .empty
  | '+' :: digits => (readDigits 0x7FFFFFFFFFFFFFFF .tooLarge digits).map fun n => (n : Int)
  | '-' :: digits => (readDigits 0x8000000000000000 .tooSmall digits).map fun n => -(n : Int)
  | digits => (readDigits 0x7FFFFFFFFFFFFFFF .tooLarge digits).map fun n => (n : Int)

end MetricRates.Number
