import MetricRates.Error
import MetricRates.Settings.Basic
import MetricRates.Settings.Preset

/-!
# The catalog of families

The catalog lists every family that is known: the built-in ones, changed or
replaced by the settings, followed by those that only the settings define.
-/

namespace MetricRates

open Settings

/-- The window of a number of rows in the settings. -/
def settingsWindow (field : String) (rows : Nat) : Except SettingsError Window :=
  match Window.ofNat? rows with
  | some window => .ok window
  | none => .error (.notPositive field)

namespace FamilySettings

/-- The name of a family: the first one set among its name, its preset and its
metric. -/
def title? (family : FamilySettings) : Option String :=
  family.name.or (family.preset.or family.metric)

/-- The name of a family at a position of the settings. -/
def nameAt (family : FamilySettings) (position : Nat) : Except SettingsError String :=
  match family.title? with
  | some name => .ok name
  | none => .error (.missingField ("#" ++ toString (position + 1)) "metric")

/-- The value of a field that a family without preset has to set. -/
def required {α : Type} (name field : String) : Option α → Except SettingsError α
  | some value => .ok value
  | none => .error (.missingField name field)

/-- The plan that the settings of a family start from: that of its preset, or
one with its metric, labels and kind and all else unset. -/
def base (family : FamilySettings) (name : String) : Except SettingsError FamilyPlan :=
  match family.preset with
  | some preset =>
      match Preset.find? preset with
      | some preset => .ok preset.plan
      | none => .error (.unknownFamily preset)
  | none => do
      let metric ← required name "metric" family.metric
      let labels ← required name "labels" family.labels
      let kind ← required name "kind" family.kind
      return { spec := .new metric (.ofList labels) kind, chart := .line metric }

/-- The window of a family: its own, or the one for all families, or that of
its base. -/
def windowOver (family : FamilySettings) (name : String) (common : Option Window)
    (base : Window) : Except SettingsError Window :=
  match family.window with
  | some rows => settingsWindow ("family." ++ name ++ ".window") rows
  | none => .ok (common.getD base)

/-- The chart group of a family, where an empty text stands for none. -/
def groupOver (family : FamilySettings) (base : Option String) : Option String :=
  match family.group with
  | some group => if group.isEmpty then none else some group
  | none => base

/-- The plan of a family: what its settings leave unset is taken from a base. -/
def planOver (family : FamilySettings) (name : String) (window : Window) (base : FamilyPlan) :
    FamilyPlan where
  spec :=
    { name := name
      metric := family.metric.getD base.spec.metric
      labels := (family.labels.map LabelSet.ofList).getD base.spec.labels
      kind := family.kind.getD base.spec.kind
      window := window
      aggregation := family.aggregation.getD base.spec.aggregation
      unitScale := family.unitScale.getD base.spec.unitScale
      columnOrder := family.columnOrder.or base.spec.columnOrder
      orderPolicy := family.orderPolicy.getD base.spec.orderPolicy
      resetPolicy := family.resetPolicy.getD base.spec.resetPolicy
      leadingFill := family.leadingFill.getD base.spec.leadingFill }
  chart :=
    { kind := family.chart.getD base.chart.kind
      title := family.title.getD base.chart.title
      unit := family.unit.getD base.chart.unit
      group := family.groupOver base.chart.group }

/-- The plan of a family at a position of the settings. -/
def plan (family : FamilySettings) (position : Nat) (common : Option Window) :
    Except SettingsError FamilyPlan := do
  let name ← family.nameAt position
  let base ← family.base name
  let window ← family.windowOver name common base.spec.window
  return family.planOver name window base

end FamilySettings

/-- The plans of the families of the settings, in order; no name may come
twice. -/
def definedPlans (common : Option Window) (earlier : List String) :
    List (FamilySettings × Nat) → Except SettingsError (List FamilyPlan)
  | [] => .ok []
  | (family, position) :: rest => do
      let plan ← family.plan position common
      if plan.name ∈ earlier then throw (.duplicateFamily plan.name)
      return plan :: (← definedPlans common (earlier ++ [plan.name]) rest)

/-- The plan of a built-in family, with the window for all families. -/
def Preset.planWith (preset : Preset) (common : Option Window) : FamilyPlan :=
  let plan := preset.plan
  { plan with spec := { plan.spec with window := common.getD plan.spec.window } }

/-- Put a plan in the place of the one of its name, or else at the end. -/
def replaceOrAppend (plan : FamilyPlan) : List FamilyPlan → List FamilyPlan
  | [] => [plan]
  | other :: rest =>
      if other.name = plan.name then plan :: rest else other :: replaceOrAppend plan rest

/-- The window for all families, if the settings have one. -/
def commonWindow (settings : Settings) : Except SettingsError (Option Window) :=
  match settings.window with
  | some rows => (settingsWindow "window" rows).map some
  | none => .ok none

/-- The known families. -/
def catalog (settings : Settings) : Except SettingsError (List FamilyPlan) := do
  let common ← commonWindow settings
  let defined ← definedPlans common [] settings.family.zipIdx
  return defined.foldl (fun plans plan => replaceOrAppend plan plans)
    (presets.map fun preset => preset.planWith common)

end MetricRates
