import MetricRates.Chart.Style
import MetricRates.Family.Output
import MetricRates.Sample.Reading

/-!
# Summaries

What is printed about the input and about each family.
-/

namespace MetricRates.Report

open Number

/-! ## Columns -/

/-- The smallest, the mean and the largest of some values. -/
structure ColumnStats where
  min : Float
  mean : Float
  max : Float

/-- The largest count that a mean divides by. -/
def maxStatsCount : Nat := UInt32.size - 1

/-- The statistics of the present cells of a column, if there are any. -/
def columnStats? (cells : List (Option Float)) : Option ColumnStats :=
  let values := cells.filterMap id
  if values.isEmpty then none
  else
    some {
      min := values.foldl (fun least v => if v < least then v else least) (1.0 / 0.0)
      mean := values.foldl (· + ·) 0.0 / Float.ofNat (Nat.min values.length maxStatsCount)
      max := values.foldl (fun most v => if most < v then v else most) (-(1.0 / 0.0)) }

/-- The summary line of a column. -/
def columnLine (column : Column Float) : String :=
  match columnStats? column.cells with
  | none => "  " ++ column.name ++ ": no values"
  | some stats =>
      "  " ++ column.name ++ ": min " ++ writeThreePlaces stats.min ++ " / mean " ++
        writeThreePlaces stats.mean ++ " / max " ++ writeThreePlaces stats.max

/-! ## Families -/

/-- The line that names a family. -/
def titleLine (output : FamilyOutput) (plan : FamilyPlan) : String :=
  match output.derived.kind with
  | .cumulative =>
      "== " ++ output.name ++ " (" ++ output.metric ++ ", cumulative, window " ++
        toString plan.spec.window.rows ++ ") =="
  | .instantaneous => "== " ++ output.name ++ " (" ++ output.metric ++ ", instantaneous) =="

/-- The line that counts the rows without rates. -/
def droppedLine (stats : RateStats) : String :=
  "Dropped rows: " ++ toString stats.warmupRows ++ " warm-up, " ++
    toString stats.degenerateWindows ++ " degenerate windows, " ++
    toString stats.incompleteRows ++ " incomplete; " ++
    toString stats.counterResets ++ " counter resets"

/-- The summary of a family. -/
def summaryLines (output : FamilyOutput) (plan : FamilyPlan) : List String :=
  [titleLine output plan,
    "Samples: " ++ toString output.filteredSamples ++ " filtered, " ++
      toString output.alignedRows ++ " aligned rows, " ++
      toString output.derived.table.rowCount ++ " output rows"] ++
  (match output.derived.kind with
    | .cumulative => [droppedLine output.derived.stats]
    | .instantaneous => []) ++
  (if output.ignoredLabels.isEmpty then []
    else
      ["Ignored labels: " ++ String.intercalate ", " output.ignoredLabels.members ++
        " (not in the allow-list; widen it with --labels)"]) ++
  [if plan.chart.unit.isEmpty then "Columns:" else "Columns (" ++ plan.chart.unit ++ "):"] ++
  output.derived.table.columns.map columnLine

/-! ## The input -/

/-- The summary of the input. -/
def inputSummaryLines (report : ReadReport) : List String :=
  ("Input: " ++ toString report.rows ++ " rows, " ++ toString report.accepted ++
      " samples accepted") ::
    if 0 < report.unparseableTimes ∨ 0 < report.malformedRows then
      ["Dropped: " ++ toString report.unparseableTimes ++ " unparseable times, " ++
        toString report.malformedRows ++ " malformed rows"]
    else []

end MetricRates.Report
