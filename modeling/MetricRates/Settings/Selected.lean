import MetricRates.Command.Line
import MetricRates.Event
import MetricRates.Settings.Catalog

/-!
# The families to report

The families that are asked for are reported, in the order of asking.  Where
none are asked for, every known family is reported whose metric is in the
input.  The window and the labels of the options apply to all of them.
-/

namespace MetricRates

open Command

/-- The known family of a name. -/
def familyNamed (known : List FamilyPlan) (name : String) : Except SettingsError FamilyPlan :=
  match known.find? fun plan => plan.name == name with
  | some plan => .ok plan
  | none => .error (.unknownFamily name)

/-- Whether the metric of a family is in the input. -/
def FamilyPlan.isPresent (present : List String) (plan : FamilyPlan) : Bool :=
  present.contains plan.spec.metric

/-- The families that are asked for, or those whose metric is in the input. -/
def chosenFamilies (requested present : List String) (known : List FamilyPlan) :
    Except SettingsError (List FamilyPlan) :=
  if requested.isEmpty then .ok (known.filter (FamilyPlan.isPresent present))
  else requested.eraseDups.mapM (familyNamed known)

/-- A plan with the window and the labels of the options. -/
def FamilyPlan.under (options : Options) (plan : FamilyPlan) : FamilyPlan :=
  { plan with
    spec :=
      { plan.spec with
        window := options.window.getD plan.spec.window
        labels := (options.labels.map LabelSet.ofList).getD plan.spec.labels } }

/-- A plan, if it can be carried out: it needs a label and a finite scale that
is not zero. -/
def FamilyPlan.checked (plan : FamilyPlan) : Except SettingsError FamilyPlan :=
  if plan.spec.labels.isEmpty then .error (.noLabels plan.name)
  else if !plan.spec.unitScale.isFinite || plan.spec.unitScale == 0.0 then
    .error (.invalidScale plan.name plan.spec.unitScale)
  else .ok plan

/-- The families that options ask for, for an input with the given metrics. -/
def Command.Options.plans (options : Options) (settings : Settings) (present : List String) :
    Except SettingsError (List FamilyPlan) := do
  let known ← catalog settings
  let chosen ← chosenFamilies options.families present known
  if chosen.isEmpty then throw .noFamilies
  chosen.mapM fun plan => (plan.under options).checked

/-- The families to report, for an input with the given metrics. -/
def selectedFamilies (line : Line) (settings : Settings) (present : List String) :
    Except SettingsError (List FamilyPlan) :=
  (line.options settings).plans settings present

/-- The event for a family that is not reported. -/
def skippedEvent (plan : FamilyPlan) : Event :=
  .debug ("Skipping family '" ++ plan.name ++ "': metric '" ++ plan.spec.metric ++
    "' not in input")

/-- The events of selecting families: one for each known family whose metric is
not in the input, where none are asked for. -/
def selectionEvents (line : Line) (settings : Settings) (present : List String) : List Event :=
  match catalog settings with
  | .error _ => []
  | .ok known =>
      if (line.options settings).families.isEmpty then
        (known.filter fun plan => !plan.isPresent present).map skippedEvent
      else []

end MetricRates
