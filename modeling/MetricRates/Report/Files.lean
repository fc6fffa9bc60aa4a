import MetricRates.Disk.Host
import MetricRates.Report.Export
import MetricRates.Report.FileName

/-!
# Files of exported tables

Each output is written to a file in the directory for its format, named after
the family.
-/

namespace MetricRates.Report

open Disk

variable {m : Type → Type} [Monad m]

/-- Write a text file into a directory, which is made if need be. -/
def writeText (host : Host m) (directory file text : String) :
    m (Except DiskError String) := do
  match ← host.makeDirectories directory with
  | .error cause => return .error cause
  | .ok () =>
      let path := join directory file
      return (← host.writeFile path (.ofText text)).map fun () => path

/-- Write a text file into a directory, if there is one. -/
def writeTextIn (host : Host m) (directory : Option String) (file text : String) :
    m (Except DiskError (List String)) := do
  match directory with
  | none => return .ok []
  | some directory => return (← writeText host directory file text).map fun path => [path]

/-- Export an output in the formats that have a directory; the paths of the
files are returned. -/
def exportOutput (host : Host m) (output : FamilyOutput) (unit : String)
    (csvDirectory jsonDirectory : Option String) : m (Except DiskError (List String)) := do
  let stem := fileStem output.name
  match ← writeTextIn host csvDirectory (stem ++ ".csv") (csvText output.derived.table) with
  | .error cause => return .error cause
  | .ok csv =>
      match ← writeTextIn host jsonDirectory (stem ++ ".json") (jsonText output unit) with
      | .error cause => return .error cause
      | .ok json => return .ok (csv ++ json)

end MetricRates.Report
