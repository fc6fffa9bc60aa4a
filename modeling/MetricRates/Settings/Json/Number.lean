import MetricRates.Number.Decimal
import MetricRates.Settings.Value

/-!
# Numbers of a JSON document

A number without fraction and exponent is an integer as long as it fits a
machine word.  Any other number is evaluated from a coefficient of one machine
word, whose further digits only count for the scale, and a power of ten by
which the coefficient is multiplied or divided.
-/

namespace MetricRates.Settings.Json

open Number

/-- The parts of a number text. -/
structure NumberParts where
  negative : Bool
  whole : List Char
  fraction : Option (List Char)
  exponent : Option Int
  deriving Repr

/-- Read digits, at least one, and what follows them. -/
def readDigits? (cs : List Char) : Option (List Char × List Char) :=
  match spanDigits cs with
  | ([], _) => none
  | read => some read

/-- Read the digits before the point: a lone zero, or digits that start with
another digit. -/
def readWhole? (cs : List Char) : Option (List Char × List Char) :=
  match readDigits? cs with
  | some ('0' :: _ :: _, _) => none
  | read => read

/-- Read an optional fraction. -/
def readFractionPart? : List Char → Option (Option (List Char) × List Char)
  | '.' :: rest => (readDigits? rest).map fun (digits, rest) => (some digits, rest)
  | cs => some (none, cs)

/-- Read the rest of a number as an optional exponent. -/
def readExponentPart? : List Char → Option (Option Int)
  | [] => some none
  | cs => (readExponent? cs).map some

/-- Read the parts of a number text. -/
def readNumberParts? (cs : List Char) : Option NumberParts := do
  let (negative, cs) :=
    match cs with
    | '-' :: rest => (true, rest)
    | _ => (false, cs)
  let (whole, cs) ← readWhole? cs
  let (fraction, cs) ← readFractionPart? cs
  let exponent ← readExponentPart? cs
  some { negative, whole, fraction, exponent }

/-- Append digits to a machine word for as long as it holds them; what is left
are the digits from the first one that does not fit. -/
def fillWord (value : Nat) : List Char → Nat × List Char
  | [] => (value, [])
  | c :: rest =>
      let next := value * 10 + digitsValue [c]
      if next ≤ maxWord then fillWord next rest else (value, c :: rest)

/-- The powers of ten that are multiplied or divided by in one step. -/
def maxPower : Nat := 308

/-- Divide by a power of ten, in steps. -/
def divideByPower (x : Float) (power : Nat) : Float :=
  if power ≤ maxPower then x / Float.ofScientific 1 false power
  else if x == 0.0 then x
  else divideByPower (x / Float.ofScientific 1 false maxPower) (power - maxPower)
  termination_by power
  decreasing_by simp only [maxPower] at *; omega

/-- Multiply by a power of ten; a result that is too large is refused. -/
def multiplyByPower? (x : Float) (power : Nat) : Option Float :=
  if power ≤ maxPower then
    let product := x * Float.ofScientific 1 false power
    if product.isFinite then some product else none
  else if x == 0.0 then some x
  else none

/-- The value of a coefficient times a power of ten. -/
def scaled? (coefficient : Nat) (exponent : Int) : Option Float :=
  if exponent < 0 then some (divideByPower (Float.ofNat coefficient) exponent.natAbs)
  else multiplyByPower? (Float.ofNat coefficient) exponent.natAbs

/-- The value of a number as a floating point number. -/
def NumberParts.float? (parts : NumberParts) : Option Float :=
  let (whole, leftWhole) := fillWord 0 parts.whole
  let fraction := parts.fraction.getD []
  let (coefficient, leftFraction) := fillWord whole fraction
  let places : Int := leftWhole.length - (fraction.length - leftFraction.length)
  (scaled? coefficient (places + parts.exponent.getD 0)).map fun size =>
    if parts.negative then -size else size

/-- The value of a number as an integer, if it is written and stored as one. -/
def NumberParts.integer? (parts : NumberParts) : Option Int :=
  match parts.fraction, parts.exponent with
  | none, none =>
      let size := digitsValue parts.whole
      if parts.negative then
        if 0 < size ∧ size ≤ 0x8000000000000000 then some (-(size : Int)) else none
      else if size ≤ maxWord then some size
      else none
  | _, _ => none

/-- The value of a number; one that is too large for a floating point number is
unusable. -/
def NumberParts.value (parts : NumberParts) : Value :=
  match parts.integer?, parts.float? with
  | some n, _ => .integer n
  | none, some x => .float x
  | none, none => .unusable

/-- Read a number text. -/
def readNumber? (cs : List Char) : Option Value :=
  (readNumberParts? cs).map NumberParts.value

end MetricRates.Settings.Json
