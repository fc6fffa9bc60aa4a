/-!
# The exact value of a floating point number

A binary64 number is not a number, an infinity, or a mantissa times a power of
two with a sign.  Printing and rounding work on this exact form, in whole
numbers.
-/

namespace MetricRates.Number

/-- The exact value of a binary64 number; a finite one is
`mantissa * 2 ^ exponent` with a sign, and `narrowBelow` says that the next
number towards zero is only half as far away as the next one outwards. -/
inductive Binary64 where
  | nan
  | infinity (negative : Bool)
  | finite (negative : Bool) (mantissa : Nat) (exponent : Int) (narrowBelow : Bool)
  deriving DecidableEq, Repr

/-- The bit that stands in front of the stored bits of a mantissa. -/
def leadingBit : Nat := 0x10000000000000

/-- Decode the bits of a floating point number. -/
def Binary64.ofFloat (x : Float) : Binary64 :=
  let bits : Nat := x.toBits.toNat
  let negative := bits / 0x8000000000000000 == 1
  let biased : Nat := bits / leadingBit % 2048
  let fraction : Nat := bits % leadingBit
  if biased = 2047 then
    if fraction = 0 then .infinity negative else .nan
  else if biased = 0 then
    .finite negative fraction (-1074) false
  else
    .finite negative (leadingBit + fraction) ((biased : Int) - 1075) (fraction == 0 && 1 < biased)

/-- Where a quotient halfway between two whole numbers goes. -/
inductive Tie where
  | away
  | even
  deriving DecidableEq, Repr

/-- Whether a quotient with the given whole part is rounded up, where `twice`
is twice the remainder. -/
def roundsUp (tie : Tie) (quotient twice denominator : Nat) : Bool :=
  if twice = denominator then
    match tie with
    | .away => true
    | .even => quotient % 2 == 1
  else
    denominator < twice

/-- The quotient rounded to the nearest whole number. -/
def roundDiv (tie : Tie) (numerator denominator : Nat) : Nat :=
  let quotient := numerator / denominator
  if roundsUp tie quotient (2 * (numerator % denominator)) denominator then quotient + 1
  else quotient

/-- The numerator and denominator of `n * 2 ^ exponent`. -/
def binaryFraction (n : Nat) (exponent : Int) : Nat × Nat :=
  if 0 ≤ exponent then (n * Nat.pow 2 exponent.toNat, 1)
  else (n, Nat.pow 2 (-exponent).toNat)

/-- The nearest integer to a finite number, a half going away from zero. -/
def roundToInt? (x : Float) : Option Int :=
  match Binary64.ofFloat x with
  | .finite negative mantissa exponent _ =>
      let fraction := binaryFraction mantissa exponent
      let magnitude : Int := roundDiv .away fraction.1 fraction.2
      some (if negative then -magnitude else magnitude)
  | _ => none

end MetricRates.Number
