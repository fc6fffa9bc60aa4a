import MetricRates.Report.Derivation
import MetricRates.Report.Files
import MetricRates.Report.Picture
import MetricRates.Report.Summary
import MetricRates.Settings.Load
import MetricRates.Settings.Selected

/-!
# A run

A run reads the settings and the input, derives every selected family and
reports each: its summary is printed, its chart is drawn and its table is
exported.  A family that fails does not stop the others.  At last the chart
groups are drawn.  The run fails with the first failure.
-/

namespace MetricRates.Report

open Disk Command

variable {m : Type → Type} [Monad m]

/-- Where the output goes; what has no directory is left out. -/
structure Outlets where
  charts : Option String
  csv : Option String
  json : Option String
  deriving DecidableEq, Repr

/-- The outlets that the options ask for. -/
def Outlets.ofOptions (options : Options) : Outlets where
  charts := if options.noCharts then none else some options.chartsPath
  csv := options.exportCsv
  json := options.exportJson

/-! ## The input -/

/-- Read the samples of a file. -/
def readSamples (host : Host m) (path : String) : m (Except InputError Reading) := do
  match ← host.readFile path with
  | .error failure => return .error (.unreadable failure.step path failure.cause)
  | .ok bytes =>
      match readBytes bytes with
      | .error cause => return .error cause
      | .ok reading => do
          host.tellAll reading.events
          return .ok reading

/-- Read the input and print what is in it. -/
def readInput (host : Host m) (path : String) : m (Except InputError Reading) := do
  match ← readSamples host path with
  | .error cause => return .error cause
  | .ok reading => do
      host.tell (.info ("Read " ++ toString reading.report.accepted ++ " samples from '" ++
        path ++ "'"))
      host.printAll (inputSummaryLines reading.report)
      return .ok reading

/-- The metrics of some samples. -/
def metricsOf (samples : List Sample) : List String :=
  samples.map Sample.metric

/-! ## Families -/

/-- A plan with the output of its family. -/
structure Entry where
  plan : FamilyPlan
  output : FamilyOutput

/-- Draw a family that has a chart of its own. -/
def drawOwnChart (host : Host m) (outlets : Outlets) (entry : Entry) :
    m (Except RunError (Option String)) :=
  match entry.plan.chart.group, outlets.charts with
  | none, some directory =>
      drawFamily host directory entry.output.name entry.plan.chart entry.output.derived.table
  | _, _ => return .ok none

/-- Tell of a chart, if there is one. -/
def tellChart (host : Host m) : Option String → m Unit
  | some path => host.tell (.info ("Chart written to '" ++ path ++ "'"))
  | none => return ()

/-- Report a family. -/
def renderFamily (host : Host m) (outlets : Outlets) (entry : Entry) :
    m (Except RunError Unit) := do
  host.printAll (summaryLines entry.output entry.plan)
  match ← drawOwnChart host outlets entry with
  | .error cause => return .error cause
  | .ok path => do
      tellChart host path
      match ← exportOutput host entry.output entry.plan.chart.unit outlets.csv outlets.json with
      | .error cause => return .error (.disk cause)
      | .ok paths => do
          host.tellAll (paths.map fun path => .info ("Exported '" ++ path ++ "'"))
          return .ok ()

/-- The event for a family that failed. -/
def familyFailure (plan : FamilyPlan) (cause : RunError) : Event :=
  .error ("Family '" ++ plan.name ++ "' failed: " ++ cause.message)

/-- Report a family as it was derived; a failure is told and returned. -/
def reportFamily (host : Host m) (outlets : Outlets) (plan : FamilyPlan) (derived : Derived) :
    m (Option RunError) := do
  let result ←
    match derived with
    | .error cause => pure (.error (.engine cause))
    | .ok output => renderFamily host outlets { plan, output }
  match result with
  | .ok () => return none
  | .error cause => do
      host.tell (familyFailure plan cause)
      return some cause

/-- Report families one after another; the failures are returned in order. -/
def reportFamilies (host : Host m) (outlets : Outlets) :
    List (FamilyPlan × Derived) → m (List RunError)
  | [] => return []
  | (plan, derived) :: rest => do
      let failure ← reportFamily host outlets plan derived
      let failures ← reportFamilies host outlets rest
      return failure.toList ++ failures

/-! ## Groups -/

/-- The families that were derived and belong to a group. -/
def groupedEntries (results : List (FamilyPlan × Derived)) : List Entry :=
  results.filterMap fun result =>
    match result.2 with
    | .ok output => if result.1.chart.group.isSome then some ⟨result.1, output⟩ else none
    | .error _ => none

/-- The groups of some families, each once, in the order in which they come
first. -/
def groupNames (entries : List Entry) : List String :=
  (entries.filterMap fun entry => entry.plan.chart.group).eraseDups

/-- A family as a panel. -/
def Entry.panel (entry : Entry) : Panel where
  name := entry.output.name
  table := entry.output.derived.table
  style := entry.plan.chart

/-- The panels of a group, in the order of the plans. -/
def groupPanels (entries : List Entry) (group : String) : List Panel :=
  (entries.filter fun entry => entry.plan.chart.group == some group).map Entry.panel

/-- Draw groups one after another up to the first failure. -/
def drawGroups (host : Host m) (directory : String) (entries : List Entry) :
    List String → m (Except RunError Unit)
  | [] => return .ok ()
  | group :: rest => do
      match ← drawGroup host directory group (groupPanels entries group) with
      | .error cause => return .error cause
      | .ok path => do
          tellChart host path
          drawGroups host directory entries rest

/-- Draw all groups, if there are charts; a failure is told and returned. -/
def reportGroups (host : Host m) (outlets : Outlets) (entries : List Entry) :
    m (Option RunError) := do
  match outlets.charts with
  | none => return none
  | some directory =>
      match ← drawGroups host directory entries (groupNames entries) with
      | .ok () => return none
      | .error cause => do
          host.tell (.error ("Chart group failed: " ++ cause.message))
          return some cause

/-! ## The whole run -/

/-- Report results: every family, then every group.  The first failure is the
failure of the report. -/
def reportResults (host : Host m) (outlets : Outlets) (results : List (FamilyPlan × Derived)) :
    m (Except RunError Unit) := do
  let failures ← reportFamilies host outlets results
  let groupFailure ← reportGroups host outlets (groupedEntries results)
  match failures ++ groupFailure.toList with
  | [] => return .ok ()
  | cause :: _ => return .error cause

/-- Report the selected families of an input. -/
def reportPlans (host : Host m) (outlets : Outlets) (samples : List Sample)
    (plans : List FamilyPlan) : m (Except RunError Unit) := do
  host.tellAll (plans.flatMap fun plan => plan.spec.events samples)
  reportResults host outlets (plans.zip (deriveAll samples plans))

/-- Report an input under settings. -/
def reportInput (host : Host m) (line : Line) (settings : Settings) :
    m (Except RunError Unit) := do
  match line.input with
  | none => return .error (.value .missingInput)
  | some path =>
      match ← readInput host path with
      | .error cause => return .error (.input cause)
      | .ok reading => do
          let present := metricsOf reading.samples
          host.tellAll (selectionEvents line settings present)
          match selectedFamilies line settings present with
          | .error cause => return .error (.settings cause)
          | .ok plans =>
              reportPlans host (.ofOptions (line.options settings)) reading.samples plans

/-- Carry out a command line. -/
def run (host : Host m) (line : Line) : m (Except RunError Unit) := do
  match ← Settings.load host line.config with
  | .error cause => return .error (.settings cause)
  | .ok settings => reportInput host line (settings.getD {})

end MetricRates.Report
