import MetricRates.Chart.Style

/-!
# Settings

Settings say what to report and how.  Whatever they leave unset is decided
elsewhere.
-/

namespace MetricRates

/-- The settings of one family.  With a preset they change it; without one they
define a family of their own. -/
structure FamilySettings where
  name : Option String := none
  preset : Option String := none
  metric : Option String := none
  labels : Option (List String) := none
  kind : Option MetricKind := none
  window : Option Nat := none
  aggregation : Option Aggregation := none
  unitScale : Option Float := none
  columnOrder : Option (List String) := none
  orderPolicy : Option OrderPolicy := none
  resetPolicy : Option ResetPolicy := none
  leadingFill : Option LeadingFill := none
  chart : Option ChartKind := none
  title : Option String := none
  unit : Option String := none
  /-- The chart group, where an empty text stands for none. -/
  group : Option String := none
  deriving DecidableEq

/-- The settings of a run. -/
structure Settings where
  chartsPath : Option String := none
  noCharts : Option Bool := none
  exportCsv : Option String := none
  exportJson : Option String := none
  /-- The window of every family that does not set its own. -/
  window : Option Nat := none
  /-- The families to report where none are asked for. -/
  families : Option (List String) := none
  family : List FamilySettings := []
  deriving DecidableEq

end MetricRates
