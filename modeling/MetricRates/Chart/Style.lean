import MetricRates.Family.Spec

/-!
# Styles of charts

A plan says how a family is computed and how it is drawn.
-/

namespace MetricRates

/-- How the columns of a family are drawn. -/
inductive ChartKind where
  | line
  | stackedArea
  deriving DecidableEq, Repr

instance : Named ChartKind where
  values := [.line, .stackedArea]
  name
    | .line => "line"
    | .stackedArea => "stacked_area"

/-- How a family is drawn. -/
structure ChartStyle where
  kind : ChartKind
  title : String
  /-- The name of the value axis, which exports repeat. -/
  unit : String
  /-- The chart that the family is a panel of, unless it has its own. -/
  group : Option String
  deriving DecidableEq, Repr

/-- A line chart with a title and nothing else set. -/
def ChartStyle.line (title : String) : ChartStyle where
  kind := .line
  title := title
  unit := ""
  group := none

/-- A family with the way it is drawn. -/
structure FamilyPlan where
  spec : FamilySpec
  chart : ChartStyle
  deriving DecidableEq

/-- The name of a planned family. -/
def FamilyPlan.name (plan : FamilyPlan) : String :=
  plan.spec.name

end MetricRates
