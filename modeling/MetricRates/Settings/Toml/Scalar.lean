import MetricRates.Number.Decimal
import MetricRates.Settings.Toml.Text
import MetricRates.Settings.Value
import MetricRates.Time.Calendar

/-!
# Scalars of a TOML document

A scalar without quotes is a run of characters that is a truth value, an
integer, a floating point number, or a date or a time.
-/

namespace MetricRates.Settings.Toml

open Number Text Text.Reader

/-! ## Numbers -/

/-- Drop the underscores from digits, if each stands between two of them. -/
def plainDigits? (isDigit : Char → Bool) : List Char → Option (List Char)
  | [] => none
  | [c] => if isDigit c then some [c] else none
  | c :: '_' :: rest =>
      if isDigit c then (plainDigits? isDigit rest).map (c :: ·) else none
  | c :: rest => if isDigit c then (plainDigits? isDigit rest).map (c :: ·) else none

/-- Read the digits of a decimal integer: a lone zero, or digits that start
with another digit. -/
def decimalDigits? (cs : List Char) : Option (List Char) :=
  match cs with
  | '0' :: _ :: _ => none
  | _ => plainDigits? Char.isDigit cs

/-- A size with its sign as an integer of 64 bits. -/
def signedInteger? (negative : Bool) (size : Nat) : Option Value :=
  if negative then
    if size ≤ 0x8000000000000000 then some (.integer (-(size : Int))) else none
  else
    if size < 0x8000000000000000 then some (.integer size) else none

/-- Read a decimal integer. -/
def decimalInteger? (cs : List Char) : Option Value := do
  let (negative, digits) := splitSign cs
  signedInteger? negative (digitsValue (← decimalDigits? digits))

/-- Whether a character is a digit in a base of at most sixteen. -/
def isDigitOf (base : Nat) (c : Char) : Bool :=
  (hexValue? c).any (· < base)

/-- Read the digits of an integer in another base. -/
def basedInteger? (base : Nat) (cs : List Char) : Option Value := do
  let digits ← plainDigits? (isDigitOf base) cs
  signedInteger? false (digits.foldl (fun size c => size * base + (hexValue? c).getD 0) 0)

/-- Read an integer. -/
def integer? : List Char → Option Value
  | '0' :: 'x' :: digits => basedInteger? 16 digits
  | '0' :: 'o' :: digits => basedInteger? 8 digits
  | '0' :: 'b' :: digits => basedInteger? 2 digits
  | cs => decimalInteger? cs

/-- Whether a character marks an exponent. -/
def isExponentMark (c : Char) : Bool :=
  c == 'e' || c == 'E'

/-- Read an exponent after its mark. -/
def exponentDigits? (cs : List Char) : Option Int := do
  let (negative, digits) := splitSign cs
  let size : Int := digitsValue (← plainDigits? Char.isDigit digits)
  some (if negative then -size else size)

/-- Read the optional exponent of a number. -/
def exponentPart? : List Char → Option Int
  | [] => some 0
  | _ :: digits => exponentDigits? digits

/-- Read the optional fraction of a number. -/
def fractionPart? : List Char → Option (List Char)
  | [] => some []
  | _ :: digits => plainDigits? Char.isDigit digits

/-- Read a decimal floating point number: digits with a fraction, an exponent
or both. -/
def decimalFloat? (cs : List Char) : Option Decimal := do
  let (negative, rest) := splitSign cs
  let coefficient := rest.takeWhile fun c => !isExponentMark c
  let exponent := rest.dropWhile fun c => !isExponentMark c
  let whole := coefficient.takeWhile (· != '.')
  let fraction := coefficient.dropWhile (· != '.')
  if exponent.isEmpty && fraction.isEmpty then none
  let wholeDigits ← decimalDigits? whole
  let fractionDigits ← fractionPart? fraction
  let power ← exponentPart? exponent
  some { negative, coefficient := digitsValue (wholeDigits ++ fractionDigits),
         exponent := power - fractionDigits.length }

/-- The value of a decimal; one that is too large for a positive number is
refused. -/
def decimalValue? (decimal : Decimal) : Option Value :=
  let x := decimal.toFloat
  if x.isFinite || decimal.negative then some (.float x) else none

/-- Read an infinity or what is not a number. -/
def specialFloat? (cs : List Char) : Option Value :=
  let (negative, name) := splitSign cs
  if name = "inf".toList then some (.float (if negative then -(1.0 / 0.0) else 1.0 / 0.0))
  else if name = "nan".toList then some (.float (0.0 / 0.0))
  else none

/-- Read a floating point number. -/
def float? (cs : List Char) : Option Value :=
  ((decimalFloat? cs).bind decimalValue?).or (specialFloat? cs)

/-! ## Dates and times -/

/-- Read a number of two digits. -/
def twoDigits (low high : Nat) : Reader Char Nat := do
  let digits := [← satisfying Char.isDigit, ← satisfying Char.isDigit]
  let n := digitsValue digits
  if low ≤ n && n ≤ high then return n else failure

/-- Read a date of the calendar. -/
def date : Reader Char Unit := do
  let century ← twoDigits 0 99
  let year ← twoDigits 0 99
  symbol '-'
  let month ← twoDigits 1 12
  symbol '-'
  let day ← twoDigits 1 31
  if (Time.Date.mk (century * 100 + year : Nat) month day).exists? then return () else failure

/-- Read a time of day. -/
def timeOfDay : Reader Char Unit := do
  let _ ← twoDigits 0 23
  symbol ':'
  let _ ← twoDigits 0 59
  symbol ':'
  let _ ← twoDigits 0 60
  let _ ← optional do
    symbol '.'
    let digits ← run Char.isDigit
    if digits.isEmpty then failure

/-- Read an offset from UTC. -/
def offset : Reader Char Unit :=
  (do let _ ← satisfying fun c => c == 'Z' || c == 'z') <|>
  (do
    let _ ← satisfying fun c => c == '+' || c == '-'
    let _ ← twoDigits 0 23
    symbol ':'
    let _ ← twoDigits 0 59)

/-- Read a time of day with an optional offset. -/
def timeWithOffset : Reader Char Unit := do
  timeOfDay
  let _ ← optional offset

/-- Read a date with an optional time, or a time of day. -/
def dateTime : Reader Char Value := do
  (do
    date
    let _ ← optional do
      let _ ← satisfying fun c => c == 'T' || c == 't' || c == ' '
      timeWithOffset) <|> timeOfDay
  return .dateTime

/-! ## Scalars -/

/-- Whether a character belongs to a scalar without quotes. -/
def isScalarChar (c : Char) : Bool :=
  c.isAlphanum || c == '_' || c == '-' || c == '+' || c == '.' || c == ':'

/-- The value of a run of characters that is neither a date nor a time. -/
def scalarValue? (cs : List Char) : Option Value :=
  if cs = "true".toList then some (.bool true)
  else if cs = "false".toList then some (.bool false)
  else (integer? cs).or (float? cs)

/-- Read a truth value or a number. -/
def plainScalar : Reader Char Value := do
  match scalarValue? (← run isScalarChar) with
  | some value => return value
  | none => failure

/-- Read a scalar. -/
def scalar : Reader Char Value :=
  (do return .text (← anyString)) <|> dateTime <|> plainScalar

end MetricRates.Settings.Toml
