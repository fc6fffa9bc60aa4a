import MetricRates.Number.Binary64

/-!
# The shortest decimal that reads back

Among the decimals that are nearer to a floating point number than to any other
one, printing takes those with the fewest digits and of these the one nearest to
the number.  The search walks through the decimal grids from coarse to fine: on
each grid only the two neighbours of the number can qualify.
-/

namespace MetricRates.Number

/-- A positive number `center / scale` with the interval `low / scale` to
`high / scale` of the reals that round to it; the ends belong to it when
`closed`. -/
structure RoundingInterval where
  low : Nat
  center : Nat
  high : Nat
  scale : Nat
  closed : Bool
  deriving Repr

/-- The rounding interval of `mantissa * 2 ^ exponent`. -/
def RoundingInterval.of (mantissa : Nat) (exponent : Int) (narrowBelow : Bool) :
    RoundingInterval :=
  let unit := binaryFraction 1 (exponent - 2)
  { low := (4 * mantissa - if narrowBelow then 1 else 2) * unit.1
    center := 4 * mantissa * unit.1
    high := (4 * mantissa + 2) * unit.1
    scale := unit.2
    closed := mantissa % 2 == 0 }

/-- Whether the quotient of two numbers lies in the interval. -/
def RoundingInterval.contains (i : RoundingInterval) (numerator denominator : Nat) : Bool :=
  let lower := i.low * denominator
  let upper := i.high * denominator
  let value := numerator * i.scale
  if i.closed then lower ≤ value && value ≤ upper else lower < value && value < upper

/-- The best multiple of `10 ^ place` in the interval, given as its multiplier:
of the two neighbours of the center the only one in the interval, or the nearer
one. -/
def RoundingInterval.onGrid? (i : RoundingInterval) (tie : Tie) (place : Int) : Option Nat :=
  let step : Nat × Nat :=
    if 0 ≤ place then (Nat.pow 10 place.toNat, 1) else (1, Nat.pow 10 (-place).toNat)
  let below := i.center * step.2 / (i.scale * step.1)
  let nearest := roundDiv tie (i.center * step.2) (i.scale * step.1)
  let other := if nearest = below then below + 1 else below
  let qualifies (n : Nat) := 0 < n && i.contains (n * step.1) step.2
  if qualifies nearest then some nearest
  else if qualifies other then some other
  else none

/-- Search the grids from `place` downwards. -/
def RoundingInterval.search (i : RoundingInterval) (tie : Tie) : Nat → Int → Nat × Int
  | 0, place => (0, place)
  | tries + 1, place =>
      match i.onGrid? tie place with
      | some n => (n, place)
      | none => i.search tie tries (place - 1)

/-- The shortest decimal `n * 10 ^ place` for the positive number
`mantissa * 2 ^ exponent`, as `n` and `place`.  The search starts above the
number and ends at the latest on the grid of its seventeenth digit. -/
def shortest (tie : Tie) (mantissa : Nat) (exponent : Int) (narrowBelow : Bool) : Nat × Int :=
  let bitLength : Int := (mantissa.log2 + 1 : Nat) + exponent
  let above : Int := Int.fdiv (bitLength * 30103) 100000 + 2
  (RoundingInterval.of mantissa exponent narrowBelow).search tie 24 above

end MetricRates.Number
