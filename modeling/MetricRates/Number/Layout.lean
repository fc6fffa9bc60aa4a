import MetricRates.Number.Shortest

/-!
# Writing floating point numbers

A number is written with its shortest digits, in positional form or with an
exponent, or with a fixed count of places after the point.  What differs from
one output to another is kept in a style record; the outputs themselves choose
the style.
-/

namespace MetricRates.Number

/-- How numbers are written with their shortest digits. -/
structure NumberStyle where
  /-- Where a number halfway between two shortest candidates goes. -/
  tie : Tie
  /-- What follows a whole number in positional form. -/
  wholeMark : String
  /-- The positions of the point, counted from the first digit, between which
  the positional form is used; always positional without. -/
  positional : Option (Int × Int)
  deriving Repr

/-- The decimal digits of a natural number. -/
def natDigits (n : Nat) : List Char :=
  Nat.toDigits 10 n

/-- A text of `count` zeros. -/
def zeros (count : Nat) : List Char :=
  List.replicate count '0'

/-- Write `0.d1d2… * 10 ^ point` without exponent. -/
def positionalForm (style : NumberStyle) (digits : List Char) (point : Int) : List Char :=
  if point ≤ 0 then
    '0' :: '.' :: (zeros (-point).toNat ++ digits)
  else if digits.length ≤ point.toNat then
    digits ++ zeros (point.toNat - digits.length) ++ style.wholeMark.toList
  else
    digits.take point.toNat ++ '.' :: digits.drop point.toNat

/-- Write `0.d1d2… * 10 ^ point` with one digit before the point and a signed
exponent. -/
def exponentForm (digits : List Char) (point : Int) : List Char :=
  let mantissa :=
    match digits with
    | first :: second :: rest => first :: '.' :: second :: rest
    | _ => digits
  let power := point - 1
  mantissa ++ 'e' :: (if power < 0 then '-' else '+') :: natDigits power.natAbs

/-- Write shortest digits in the form that the style asks for. -/
def NumberStyle.layout (style : NumberStyle) (digits : List Char) (point : Int) : List Char :=
  match style.positional with
  | none => positionalForm style digits point
  | some (low, high) =>
      if low < point && point ≤ high then positionalForm style digits point
      else exponentForm digits point

/-- Write a number with its shortest digits. -/
def NumberStyle.write (style : NumberStyle) (x : Float) : String :=
  match Binary64.ofFloat x with
  | .nan => "NaN"
  | .infinity negative => if negative then "-inf" else "inf"
  | .finite negative mantissa exponent narrowBelow =>
      let size :=
        if mantissa = 0 then '0' :: style.wholeMark.toList
        else
          let (n, place) := shortest style.tie mantissa exponent narrowBelow
          let digits := natDigits n
          style.layout digits (digits.length + place)
      String.ofList (if negative then '-' :: size else size)

/-- Write a number rounded to three places, a half going to the even
neighbour. -/
def writeThreePlaces (x : Float) : String :=
  match Binary64.ofFloat x with
  | .nan => "NaN"
  | .infinity negative => if negative then "-inf" else "inf"
  | .finite negative mantissa exponent _ =>
      let fraction := binaryFraction mantissa exponent
      let thousandths := roundDiv .even (1000 * fraction.1) fraction.2
      let digits := natDigits thousandths
      let padded := zeros (4 - digits.length) ++ digits
      let whole := padded.take (padded.length - 3)
      let places := padded.drop (padded.length - 3)
      String.ofList ((if negative then ['-'] else []) ++ whole ++ '.' :: places)

/-- Plain numbers: always positional, nothing after a whole number, and a half
goes up. -/
def plainStyle : NumberStyle :=
  { tie := .away, wholeMark := "", positional := none }

/-- Write a number in the plain style. -/
def writePlain (x : Float) : String :=
  plainStyle.write x

end MetricRates.Number
