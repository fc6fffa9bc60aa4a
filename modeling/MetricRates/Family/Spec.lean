import MetricRates.Family.Labels
import MetricRates.Table.Arrange

/-!
# Families

A family is what one metric is made into: which labels count, whether its
values are a running total or a reading, and how rows and columns are treated.
-/

namespace MetricRates

/-- What the values of a metric are. -/
inductive MetricKind where
  /-- A running total, of which rates are taken. -/
  | cumulative
  /-- A reading, which is only scaled. -/
  | instantaneous
  deriving DecidableEq, Repr

instance : Named MetricKind where
  values := [.cumulative, .instantaneous]
  name
    | .cumulative => "cumulative"
    | .instantaneous => "instantaneous"

/-- What becomes of several samples of one label at one instant. -/
inductive Aggregation where
  | mean
  | last
  deriving DecidableEq, Repr

instance : Named Aggregation where
  values := [.mean, .last]
  name
    | .mean => "mean"
    | .last => "last"

/-- What becomes of a running total that went down. -/
inductive ResetPolicy where
  /-- It has no rate. -/
  | skip
  /-- It has a negative rate. -/
  | keep
  deriving DecidableEq, Repr

instance : Named ResetPolicy where
  values := [.skip, .keep]
  name
    | .skip => "skip"
    | .keep => "keep"

/-- What stands in a column before its first sample. -/
inductive LeadingFill where
  | absent
  | zero
  deriving DecidableEq, Repr

instance : Named LeadingFill where
  values := [.absent, .zero]
  name
    | .absent => "absent"
    | .zero => "zero"

/-- How many rows back a rate looks. -/
structure Window where
  rows : Nat
  positive : 0 < rows
  deriving DecidableEq, Repr

/-- The window of a number of rows, if there are any. -/
def Window.ofNat? (rows : Nat) : Option Window :=
  if positive : 0 < rows then some ⟨rows, positive⟩ else none

/-- The window where none is set: ten rows. -/
def Window.default : Window := ⟨10, by decide⟩

/-- A family of samples and what is made of it. -/
structure FamilySpec where
  name : String
  metric : String
  labels : LabelSet
  kind : MetricKind
  window : Window
  aggregation : Aggregation
  /-- The factor that is applied to every rate or reading. -/
  unitScale : Float
  columnOrder : Option (List String)
  orderPolicy : OrderPolicy
  resetPolicy : ResetPolicy
  leadingFill : LeadingFill
  deriving DecidableEq

/-- The family of a metric with all else unset. -/
def FamilySpec.new (metric : String) (labels : LabelSet) (kind : MetricKind) :
    FamilySpec where
  name := metric
  metric := metric
  labels := labels
  kind := kind
  window := .default
  aggregation := .last
  unitScale := 1.0
  columnOrder := none
  orderPolicy := .append
  resetPolicy := .skip
  leadingFill := .absent

end MetricRates
