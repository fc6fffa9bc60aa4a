import MetricRates.Family.Alignment
import MetricRates.Family.Rates

/-!
# The output of a family

A family is processed in four steps: its samples are selected, aligned on time,
arranged by the column order if there is one, and made into rates or scaled.
-/

namespace MetricRates

/-- What a family amounts to. -/
structure FamilyOutput where
  name : String
  metric : String
  derived : DerivedTable
  filteredSamples : Nat
  alignedRows : Nat
  ignoredLabels : LabelSet
  deriving DecidableEq

namespace FamilySpec

/-- Arrange the columns as the family asks. -/
def arrange (spec : FamilySpec) (table : Table Float) : Except EngineError (Table Float) :=
  match spec.columnOrder with
  | none => .ok table
  | some order => table.arrangeUnder order spec.orderPolicy spec.metric

/-- Derive the table that the family asks for. -/
def derive (spec : FamilySpec) (table : Table Float) : DerivedTable :=
  MetricRates.derive spec.kind spec.window spec.unitScale spec.resetPolicy table

/-- Process the samples of a family. -/
def process (spec : FamilySpec) (samples : List Sample) : Except EngineError FamilyOutput := do
  let selection ← select spec.metric spec.labels samples
  let aligned ← spec.arrange (selection.align spec.aggregation spec.leadingFill)
  return {
    name := spec.name
    metric := spec.metric
    derived := spec.derive aligned
    filteredSamples := selection.samples.length
    alignedRows := aligned.rowCount
    ignoredLabels := selection.ignoredLabels }

/-! ## Events -/

/-- The events of arranging the columns. -/
def arrangeEvents (spec : FamilySpec) (table : Table Float) : List Event :=
  match spec.columnOrder with
  | none => []
  | some order => table.arrangeEvents order spec.orderPolicy spec.metric

/-- The event that sums up the output of a family. -/
def outputEvent (output : FamilyOutput) : Event :=
  let stats := output.derived.stats
  .debug ("Family '" ++ output.name ++ "': " ++ toString output.filteredSamples ++
    " samples, " ++ toString output.alignedRows ++ " aligned rows, " ++
    toString output.derived.table.rowCount ++ " output rows (" ++
    toString stats.warmupRows ++ " warm-up, " ++
    toString stats.degenerateWindows ++ " degenerate, " ++
    toString stats.counterResets ++ " resets, " ++
    toString stats.incompleteRows ++ " incomplete)")

/-- The events of an aligned table on its way to the output. -/
def alignedEvents (spec : FamilySpec) (table : Table Float) : List Event :=
  spec.arrangeEvents table ++
    match spec.arrange table with
    | .error _ => []
    | .ok arranged =>
        deriveEvents spec.kind spec.window spec.unitScale spec.resetPolicy arranged

/-- The events of processing a family. -/
def events (spec : FamilySpec) (samples : List Sample) : List Event :=
  selectEvents spec.metric spec.labels samples ++
    (match select spec.metric spec.labels samples with
    | .error _ => []
    | .ok selection =>
        spec.alignedEvents (selection.align spec.aggregation spec.leadingFill)) ++
    match spec.process samples with
    | .error _ => []
    | .ok output => [outputEvent output]

end FamilySpec

end MetricRates
