import MetricRates.Chart.Series

/-!
# Stacked bands

The columns of a table are stacked on each other: the edge above a column is the
running sum of the columns up to it, where an absent cell counts as zero.
-/

namespace MetricRates.Chart

variable {α : Type} [Scalar α]

/-- The edges of stacked columns over the seconds of the rows. -/
structure StackedBands (α : Type) where
  xs : List α
  edges : List (List α)
  deriving DecidableEq, Repr

/-- Put the cells of a column on top of an edge. -/
def stackCells (edge : List α) (cells : List (Option α)) : List α :=
  List.zipWith (fun total cell => total + cell.getD Scalar.zero) edge cells

/-- The bands of a table. -/
def StackedBands.ofTable (table : Table α) : StackedBands α where
  xs := rowSeconds table
  edges := (table.columns.map Column.cells).scanl stackCells
    (List.replicate table.rowCount Scalar.zero)

/-- The time axis of bands: it reaches to the last row. -/
def StackedBands.timeAxis (bands : StackedBands α) : Interval α :=
  .upTo (bands.xs.getLast?.getD Scalar.zero)

/-- The value axis of bands: it shows zero and every edge, and starts at zero
unless an edge is negative. -/
def StackedBands.valueAxis (bands : StackedBands α) : Interval α :=
  let values := bands.edges.flatten
  let low := values.foldl smaller Scalar.zero
  let padded := Interval.padded low (values.foldl larger Scalar.zero)
  { low := if Scalar.less low Scalar.zero then padded.low else Scalar.zero
    high := padded.high }

@[simp]
theorem length_stackCells (edge : List α) (cells : List (Option α)) :
    (stackCells edge cells).length = min edge.length cells.length := by
  simp [stackCells]

end MetricRates.Chart
