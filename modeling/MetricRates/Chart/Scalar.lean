/-!
# Numbers to lay out charts with

Charts are laid out with few operations on numbers, gathered in one class.
Floating point numbers draw the charts; rational numbers give the same layout
without rounding.
-/

namespace MetricRates.Chart

/-- Numbers to lay out charts with. -/
class Scalar (α : Type) extends Add α, Sub α, Mul α where
  less : α → α → Bool
  zero : α
  one : α
  /-- The share of a range that is left free at each end. -/
  margin : α
  /-- The width up to which a range counts as a single point. -/
  epsilon : α
  abs : α → α
  isFinite : α → Bool
  /-- The seconds in a number of nanoseconds. -/
  seconds : Int → α

instance : Scalar Float where
  less := fun a b => decide (a < b)
  zero := 0.0
  one := 1.0
  margin := 0.05
  epsilon := 2.220446049250313e-16
  abs := Float.abs
  isFinite := Float.isFinite
  seconds := fun nanos => Float.ofInt nanos / 1000000000.0

instance : Scalar Rat where
  less := fun a b => decide (a < b)
  zero := 0
  one := 1
  margin := 1 / 20
  epsilon := 1 / 0x10000000000000
  abs := Rat.abs
  isFinite := fun _ => true
  seconds := fun nanos => nanos / 1000000000

variable {α : Type} [Scalar α]

/-- The larger of two numbers; of two that cannot be told apart the first. -/
def larger (a b : α) : α :=
  if Scalar.less a b then b else a

/-- The smaller of two numbers; of two that cannot be told apart the first. -/
def smaller (a b : α) : α :=
  if Scalar.less b a then b else a

end MetricRates.Chart
