import MetricRates.Text.Blank
import MetricRates.Number.Integer

/-!
# Reading decimal numbers

A number text is an optional sign followed by `inf`, `infinity` or `nan` in any
letter case, or by decimal digits with an optional point among or around them
and an optional exponent.  A decimal text denotes a coefficient times a power of
ten; its value is the nearest floating point number.
-/

namespace MetricRates.Number

/-- A coefficient times a power of ten, with a sign. -/
structure Decimal where
  negative : Bool
  coefficient : Nat
  exponent : Int
  deriving DecidableEq, Repr

/-- What a number text denotes. -/
inductive NumberText where
  | nan
  | infinity (negative : Bool)
  | decimal (value : Decimal)
  deriving DecidableEq, Repr

/-- The digits at the start of a text and what follows them. -/
def spanDigits (cs : List Char) : List Char × List Char :=
  cs.span Char.isDigit

/-- Split an optional sign from a text; `true` stands for a minus sign. -/
def splitSign : List Char → Bool × List Char
  | '-' :: rest => (true, rest)
  | '+' :: rest => (false, rest)
  | cs => (false, cs)

/-- Read the whole text as an exponent part, where an empty text is the
exponent zero. -/
def readExponent? : List Char → Option Int
  | [] => some 0
  | mark :: rest =>
      if mark = 'e' ∨ mark = 'E' then
        let (negative, digits) := splitSign rest
        if digits.isEmpty || digits.any (fun c => !c.isDigit) then none
        else
          let size : Int := digitsValue digits
          some (if negative then -size else size)
      else
        none

/-- Read a text as the word for a special value, in any letter case. -/
def readSpecial? (negative : Bool) (cs : List Char) : Option NumberText :=
  let word := cs.map Char.toLower
  if word = "nan".toList then some .nan
  else if word = "inf".toList ∨ word = "infinity".toList then some (.infinity negative)
  else none

/-- Read a text without sign as digits with an optional point and exponent. -/
def readUnsignedDecimal? (negative : Bool) (cs : List Char) : Option Decimal := do
  let (whole, afterWhole) := spanDigits cs
  let (fraction, afterFraction) :=
    match afterWhole with
    | '.' :: rest => spanDigits rest
    | _ => ([], afterWhole)
  if whole.isEmpty && fraction.isEmpty then none
  let exponent ← readExponent? afterFraction
  some { negative, coefficient := digitsValue (whole ++ fraction),
         exponent := exponent - fraction.length }

/-- Read a number text. -/
def readNumberText? (cs : List Char) : Option NumberText :=
  let (negative, rest) := splitSign cs
  match readUnsignedDecimal? negative rest with
  | some decimal => some (.decimal decimal)
  | none => readSpecial? negative rest

/-- A lower estimate of the decimal logarithm of a nonzero decimal. -/
def Decimal.magnitude (d : Decimal) : Int :=
  (d.coefficient.log2 * 30102 / 100000 : Nat) + d.exponent

/-- The floating point number nearest to a decimal.  Exponents far outside the
range of floating point numbers are settled from the magnitude alone. -/
def Decimal.toFloat (d : Decimal) : Float :=
  let size : Float :=
    if d.coefficient = 0 then 0
    else if 400 < d.magnitude then 1 / 0
    else if d.magnitude < -400 then 0
    else Float.ofScientific d.coefficient (d.exponent < 0) d.exponent.natAbs
  if d.negative then -size else size

/-- The floating point value of a number text. -/
def NumberText.toFloat : NumberText → Float
  | .nan => 0 / 0
  | .infinity negative => if negative then -(1 / 0) else 1 / 0
  | .decimal value => value.toFloat

/-- Read a text as a floating point number. -/
def readFloat? (cs : List Char) : Option Float :=
  (readNumberText? cs).map NumberText.toFloat

end MetricRates.Number
