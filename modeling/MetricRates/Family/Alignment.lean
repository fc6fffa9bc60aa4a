import MetricRates.Family.Selection
import MetricRates.Family.Spec
import MetricRates.Table.Basic

/-!
# Aligning samples on time

The samples of a selection become a table: one row for each instant at which
anything was sampled, one column for each label.  Several samples of one label
at one instant are combined into one observation, and an observation is carried
forward into the rows in which its label was not sampled.
-/

namespace MetricRates

open Time

/-! ## Observations -/

/-- The largest count that a mean divides by. -/
def maxMeanCount : Nat := UInt32.size - 1

/-- Combine one or more values, given in input order. -/
def Aggregation.combine (aggregation : Aggregation) (first : Float) (rest : List Float) :
    Float :=
  match aggregation with
  | .mean => rest.foldl (· + ·) first / Float.ofNat (min (1 + rest.length) maxMeanCount)
  | .last => rest.getLastD first

/-- One or more values of one label at one instant, in input order. -/
structure Group where
  time : Timestamp
  first : Float
  rest : List Float
  deriving DecidableEq

/-- Put a value in front of groups that are sorted by time. -/
def consGroup (sample : Sample) : List Group → List Group
  | [] => [{ time := sample.time, first := sample.value, rest := [] }]
  | group :: groups =>
      if sample.time = group.time then
        { group with first := sample.value, rest := group.first :: group.rest } :: groups
      else
        { time := sample.time, first := sample.value, rest := [] } :: group :: groups

/-- Gather neighbouring samples of the same instant. -/
def groupNeighbours (samples : List Sample) : List Group :=
  samples.foldr consGroup []

/-- One value of a label at an instant. -/
structure Observation where
  time : Timestamp
  value : Float
  deriving DecidableEq

/-- The observation that a group amounts to. -/
def Group.combine (aggregation : Aggregation) (group : Group) : Observation where
  time := group.time
  value := aggregation.combine group.first group.rest

/-- Samples in the order of their times; samples of one instant keep their
order. -/
def byTime (samples : List Sample) : List Sample :=
  samples.mergeSort fun a b => decide (a.time ≤ b.time)

/-- The observations of a label, in the order of their times. -/
def observations (aggregation : Aggregation) (label : String) (samples : List Sample) :
    List Observation :=
  (groupNeighbours (byTime (samples.filter fun sample => sample.label == label))).map
    (Group.combine aggregation)

/-! ## Carrying forward -/

/-- What stands before the first observation of a column. -/
def LeadingFill.cell : LeadingFill → Option Float
  | .absent => none
  | .zero => some 0.0

/-- The cells of a column over an ascending index: each instant has its
observation, or else what was carried so far. -/
def carryForward (carried : Option Float) :
    List Timestamp → List Observation → List (Option Float)
  | [], _ => []
  | _ :: index, [] => carried :: carryForward carried index []
  | time :: index, observation :: later =>
      if observation.time = time then
        some observation.value :: carryForward (some observation.value) index later
      else
        carried :: carryForward carried index (observation :: later)

@[simp]
theorem length_carryForward (carried : Option Float) (index : List Timestamp)
    (observed : List Observation) :
    (carryForward carried index observed).length = index.length := by
  fun_induction carryForward carried index observed <;> simp_all

/-! ## The aligned table -/

/-- The instants at which anything was sampled, ascending. -/
def sampledTimes (samples : List Sample) : List Timestamp :=
  sortedMembers (fun a b => decide (a ≤ b)) (samples.map Sample.time)

/-- The labels that were sampled. -/
def sampledLabels (samples : List Sample) : LabelSet :=
  .ofList (samples.map Sample.label)

/-- The aligned table of some samples. -/
def alignSamples (aggregation : Aggregation) (leadingFill : LeadingFill)
    (samples : List Sample) : Table Float where
  index := sampledTimes samples
  columns := (sampledLabels samples).members.map fun label =>
    { name := label
      cells := carryForward leadingFill.cell (sampledTimes samples)
        (observations aggregation label samples) }
  rectangular := by
    intro column member
    obtain ⟨label, _, rfl⟩ := List.mem_map.mp member
    exact length_carryForward ..

/-- The aligned table of a selection. -/
def Selection.align (selection : Selection) (aggregation : Aggregation)
    (leadingFill : LeadingFill) : Table Float :=
  alignSamples aggregation leadingFill selection.samples

/-- The samples of a metric that a table amounts to: every present cell, column
by column. -/
def Table.toSamples (metric : String) (table : Table Float) : List Sample :=
  table.columns.flatMap fun column =>
    (table.index.zip column.cells).filterMap fun entry =>
      entry.2.map fun value => { metric, label := column.name, time := entry.1, value }

/-- The columns of an aligned table are named by the sampled labels. -/
@[simp]
theorem names_alignSamples (aggregation : Aggregation) (leadingFill : LeadingFill)
    (samples : List Sample) :
    (alignSamples aggregation leadingFill samples).names = (sampledLabels samples).members := by
  simp [Table.names, alignSamples, Function.comp_def]

end MetricRates
