import MetricRates.Family.Output
import MetricRates.Sample.Reading
import MetricRates.Settings.Decode
import MetricRates.Settings.Selected

/-!
# Trials

A text can be tried out without a run: settings by selecting the families that
they lead to, and samples by deriving every built-in family from them.
-/

namespace MetricRates.Report

/-- The settings that a text denotes. -/
def settingsOf (format : SettingsFormat) (text : String) : Except RunError Settings :=
  match Settings.read? format text with
  | some settings => .ok settings
  | none => .error (.document format)

/-- The command line of a trial, which asks for nothing but an input. -/
def trialLine : Command.Line := { input := some "metrics.csv" }

/-- The metrics of an input in which every built-in family has its own. -/
def presetMetrics : List String := presets.map Preset.metric

/-- The families that the settings of a text lead to. -/
def trySettings (format : SettingsFormat) (text : String) :
    Except RunError (List FamilyPlan) := do
  let settings ← settingsOf format text
  (selectedFamilies trialLine settings presetMetrics).mapError .settings

/-- The events of trying settings. -/
def trySettingsEvents (format : SettingsFormat) (text : String) : List Event :=
  match settingsOf format text with
  | .ok settings => selectionEvents trialLine settings presetMetrics
  | .error _ => []

/-- The number of rows that a built-in family derives from some samples; one
that fails derives none. -/
def presetRows (samples : List Sample) (preset : Preset) : Nat :=
  match preset.plan.spec.process samples with
  | .ok output => output.derived.table.rowCount
  | .error _ => 0

/-- The number of rows that the built-in families derive from the samples of a
text. -/
def trySamples (text : String) : Except RunError Nat :=
  match readText text with
  | .ok reading => .ok ((presets.map (presetRows reading.samples)).foldl (· + ·) 0)
  | .error cause => .error (.input cause)

/-- The events of trying samples. -/
def trySamplesEvents (text : String) : List Event :=
  match readText text with
  | .ok reading =>
      reading.events ++ presets.flatMap fun preset => preset.plan.spec.events reading.samples
  | .error _ => []

end MetricRates.Report
