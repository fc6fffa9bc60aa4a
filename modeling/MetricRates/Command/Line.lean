import MetricRates.Settings.Basic

/-!
# The command line

A command line says what to report; what it leaves open is decided by the
settings and, last, by defaults.
-/

namespace MetricRates.Command

/-- What a command line gives. -/
structure Line where
  input : Option String := none
  families : List String := []
  config : Option String := none
  window : Option Window := none
  labels : Option (List String) := none
  chartsPath : Option String := none
  noCharts : Bool := false
  exportCsv : Option String := none
  exportJson : Option String := none
  listFamilies : Bool := false
  verbose : Bool := false
  noColor : Bool := false
  deriving DecidableEq

/-- Where charts go by default. -/
def defaultChartsPath : String := "charts"

/-- What a run goes by: every argument, with its default where it is not given. -/
structure Options where
  input : Option String
  families : List String
  config : Option String
  window : Option Window
  labels : Option (List String)
  chartsPath : String
  noCharts : Bool
  exportCsv : Option String
  exportJson : Option String
  listFamilies : Bool
  verbose : Bool
  noColor : Bool
  deriving DecidableEq, Repr

/-- The arguments of which settings can decide. -/
inductive Setting where
  | families
  | chartsPath
  | noCharts
  | exportCsv
  | exportJson
  deriving DecidableEq, Repr

/-- The options of a command line on its own. -/
def Line.defaults (line : Line) : Options where
  input := line.input
  families := line.families
  config := line.config
  window := line.window
  labels := line.labels
  chartsPath := line.chartsPath.getD defaultChartsPath
  noCharts := line.noCharts
  exportCsv := line.exportCsv
  exportJson := line.exportJson
  listFamilies := line.listFamilies
  verbose := line.verbose
  noColor := line.noColor

/-- Whether an argument is given on a command line. -/
def Line.gives (line : Line) : Setting → Bool
  | .families => !line.families.isEmpty
  | .chartsPath => line.chartsPath.isSome
  | .noCharts => line.noCharts
  | .exportCsv => line.exportCsv.isSome
  | .exportJson => line.exportJson.isSome

/-- A value under a setting: a value that is given wins over the setting, and the
setting over one that is not. -/
def valueUnder {α : Type} (given : Bool) (value : α) (setting : Option α) : α :=
  if given then value else setting.getD value

/-- Options under settings, where some arguments are given. -/
def Options.under (options : Options) (given : Setting → Bool) (settings : Settings) : Options :=
  { options with
    families := valueUnder (given .families) options.families settings.families
    chartsPath := valueUnder (given .chartsPath) options.chartsPath settings.chartsPath
    noCharts := valueUnder (given .noCharts) options.noCharts settings.noCharts
    exportCsv := valueUnder (given .exportCsv) options.exportCsv (settings.exportCsv.map some)
    exportJson := valueUnder (given .exportJson) options.exportJson
      (settings.exportJson.map some) }

/-- The options of a command line under settings. -/
def Line.options (line : Line) (settings : Settings) : Options :=
  line.defaults.under line.gives settings

end MetricRates.Command
