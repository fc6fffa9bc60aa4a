import MetricRates.Chart.Scalar

/-!
# Intervals of chart axes

An axis shows an interval of numbers.  The time axis starts at zero; a value
axis leaves a margin around the values that it has to show.
-/

namespace MetricRates.Chart

variable {α : Type} [Scalar α]

/-- The interval that an axis shows. -/
structure Interval (α : Type) where
  low : α
  high : α
  deriving DecidableEq, Repr

/-- The interval where there is nothing to go by. -/
def Interval.unit : Interval α := ⟨Scalar.zero, Scalar.one⟩

/-- The interval from zero to a number, if it is positive. -/
def Interval.upTo (high : α) : Interval α :=
  if Scalar.less Scalar.zero high then ⟨Scalar.zero, high⟩ else .unit

/-- The interval from zero to the largest of some numbers. -/
def Interval.covering (xs : List α) : Interval α :=
  .upTo (xs.foldl larger Scalar.zero)

/-- The interval around two bounds by a width on each side. -/
def Interval.around (low high width : α) : Interval α :=
  ⟨low - width, high + width⟩

/-- The width that is left free around a single point. -/
def pointMargin (x : α) : α :=
  if Scalar.less Scalar.epsilon (Scalar.abs x) then Scalar.abs x * Scalar.margin
  else Scalar.one

/-- The interval that shows two bounds with a margin. -/
def Interval.padded (low high : α) : Interval α :=
  if !Scalar.isFinite low || !Scalar.isFinite high then .unit
  else if Scalar.less Scalar.epsilon (high - low) then
    .around low high ((high - low) * Scalar.margin)
  else .around low high (pointMargin low)

end MetricRates.Chart
