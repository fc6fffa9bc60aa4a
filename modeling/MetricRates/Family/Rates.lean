import MetricRates.Event
import MetricRates.Family.Spec
import MetricRates.Table.Rows

/-!
# Rates

Each row of a table is compared with the row a fixed number of rows before it.
A window over which time does not advance is degenerate; a window with a cell
that has no rate is incomplete; every other window gives one row of rates per
second.  All counts follow from the outcomes of the windows.
-/

namespace MetricRates

open Time

/-! ## One window -/

/-- Two rows of a table, the earlier one first in row order. -/
structure Span where
  earlier : Row Float
  later : Row Float
  deriving DecidableEq

/-- The seconds between the rows of a span, with sign. -/
def Span.elapsed (span : Span) : Float :=
  span.later.time.secondsSince span.earlier.time

/-- The rows of a span cell by cell. -/
def Span.cellPairs (span : Span) : List (Option Float × Option Float) :=
  span.earlier.cells.zip span.later.cells

/-- What a column gives over a span. -/
inductive CellRate where
  | missing
  | reset
  | rate (value : Float)
  deriving DecidableEq

/-- What a column gives, from its cells in the earlier and the later row. -/
def cellRate (policy : ResetPolicy) (unitScale elapsed : Float) :
    Option Float × Option Float → CellRate
  | (some before, some after) =>
      let change := after - before
      if change < 0.0 ∧ policy = .skip then .reset
      else .rate (change / elapsed * unitScale)
  | _ => .missing

/-- The value of a rate, if there is one. -/
def CellRate.value? : CellRate → Option Float
  | .rate value => some value
  | _ => none

/-- What becomes of a window. -/
inductive WindowOutcome where
  | degenerate (ending : Timestamp) (elapsed : Float)
  | incomplete (resets : Nat)
  | complete (row : Row Float)
  deriving DecidableEq

/-- What becomes of a span whose columns give the listed rates. -/
def completeOutcome (time : Timestamp) (rates : List CellRate) : WindowOutcome :=
  if rates.all fun rate => rate.value?.isSome then
    .complete { time, cells := rates.map CellRate.value? }
  else
    .incomplete (rates.count .reset)

/-- The rates of the columns over a span. -/
def Span.rates (policy : ResetPolicy) (unitScale : Float) (span : Span) : List CellRate :=
  span.cellPairs.map (cellRate policy unitScale span.elapsed)

/-- What becomes of a span. -/
def Span.outcome (policy : ResetPolicy) (unitScale : Float) (span : Span) : WindowOutcome :=
  if span.elapsed ≤ 0.0 then .degenerate span.later.time span.elapsed
  else completeOutcome span.later.time (span.rates policy unitScale)

/-! ## All windows -/

/-- The spans of a window size, in the order of their later rows. -/
def spans (window : Window) (rows : List (Row Float)) : List Span :=
  List.zipWith Span.mk rows (rows.drop window.rows)

/-- What becomes of the windows of a table. -/
def windowOutcomes (window : Window) (unitScale : Float) (policy : ResetPolicy)
    (table : Table Float) : List WindowOutcome :=
  (spans window table.rows).map (Span.outcome policy unitScale)

/-- The row that a window gives. -/
def WindowOutcome.row? : WindowOutcome → Option (Row Float)
  | .complete row => some row
  | _ => none

/-- Whether a window is degenerate. -/
def WindowOutcome.isDegenerate : WindowOutcome → Bool
  | .degenerate _ _ => true
  | _ => false

/-- Whether a window is incomplete. -/
def WindowOutcome.isIncomplete : WindowOutcome → Bool
  | .incomplete _ => true
  | _ => false

/-- The resets in a window. -/
def WindowOutcome.resets : WindowOutcome → Nat
  | .incomplete resets => resets
  | _ => 0

/-- Why rows have no rates. -/
structure RateStats where
  /-- Rows without a row that far before them. -/
  warmupRows : Nat
  /-- Windows over which time does not advance. -/
  degenerateWindows : Nat
  /-- Cells whose running total went down. -/
  counterResets : Nat
  /-- Rows with a cell that has no rate. -/
  incompleteRows : Nat
  deriving DecidableEq, Repr

/-- The counts of a table that is not made of rates. -/
def RateStats.none : RateStats := ⟨0, 0, 0, 0⟩

/-- A table of rates with the counts of what it lacks. -/
structure RateTable where
  table : Table Float
  stats : RateStats
  deriving DecidableEq

/-- The rates of a table. -/
def deriveRates (window : Window) (unitScale : Float) (policy : ResetPolicy)
    (table : Table Float) : RateTable :=
  let outcomes := windowOutcomes window unitScale policy table
  { table := .ofRows table.names (outcomes.filterMap WindowOutcome.row?)
    stats :=
      { warmupRows := min table.rowCount window.rows
        degenerateWindows := outcomes.countP WindowOutcome.isDegenerate
        counterResets := (outcomes.map WindowOutcome.resets).foldl (· + ·) 0
        incompleteRows := outcomes.countP WindowOutcome.isIncomplete } }

/-- The event for a degenerate window. -/
def WindowOutcome.event? : WindowOutcome → Option Event
  | .degenerate ending elapsed =>
      some (.debug ("Window ending at " ++ ending.text ++ " spans " ++
        Number.writePlain elapsed ++ "s; row dropped"))
  | _ => none

/-- The events of deriving rates. -/
def rateEvents (window : Window) (unitScale : Float) (policy : ResetPolicy)
    (table : Table Float) : List Event :=
  (windowOutcomes window unitScale policy table).filterMap WindowOutcome.event?

/-! ## Readings -/

/-- The readings of a table, scaled. -/
def scaleReadings (unitScale : Float) (table : Table Float) : Table Float :=
  table.mapPresent (· * unitScale)

/-- What is derived from an aligned table. -/
inductive DerivedTable where
  | rates (result : RateTable)
  | readings (table : Table Float)
  deriving DecidableEq

/-- Derive the table of a metric kind. -/
def derive (kind : MetricKind) (window : Window) (unitScale : Float) (policy : ResetPolicy)
    (table : Table Float) : DerivedTable :=
  match kind with
  | .cumulative => .rates (deriveRates window unitScale policy table)
  | .instantaneous => .readings (scaleReadings unitScale table)

/-- The events of deriving. -/
def deriveEvents (kind : MetricKind) (window : Window) (unitScale : Float)
    (policy : ResetPolicy) (table : Table Float) : List Event :=
  match kind with
  | .cumulative => rateEvents window unitScale policy table
  | .instantaneous => []

/-- The kind of metric that a derived table comes from. -/
def DerivedTable.kind : DerivedTable → MetricKind
  | .rates _ => .cumulative
  | .readings _ => .instantaneous

/-- The table itself. -/
def DerivedTable.table : DerivedTable → Table Float
  | .rates result => result.table
  | .readings table => table

/-- The counts of a derived table. -/
def DerivedTable.stats : DerivedTable → RateStats
  | .rates result => result.stats
  | .readings _ => .none

end MetricRates
