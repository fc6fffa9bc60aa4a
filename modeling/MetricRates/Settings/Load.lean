import MetricRates.Disk.Host
import MetricRates.Settings.Decode
import MetricRates.Text.Utf8

/-!
# Loading settings

Settings are loaded from the file that is asked for, or from the first of the
usual files that is there.  The extension of a file says its language.
-/

namespace MetricRates.Settings

open Disk

/-- The files that are looked for where none is asked for. -/
def usualFiles : List String := ["ratechart.toml", "ratechart.json"]

/-- The language of a file. -/
def formatOf (path : String) : Except SettingsError SettingsFormat :=
  match extension? path with
  | some "toml" => .ok .toml
  | some "json" => .ok .json
  | some extension => .error (.unsupportedExtension extension)
  | none => .error .missingExtension

/-- Read the text of a file as settings. -/
def ofText (path text : String) : Except SettingsError Settings := do
  let format ← formatOf path
  match read? format text with
  | some settings => .ok settings
  | none => .error (.malformed format path)

/-- Read the bytes of a file as settings. -/
def ofBytes (path : String) (bytes : List UInt8) : Except SettingsError Settings :=
  match Text.decodeUtf8? bytes with
  | some text => ofText path (String.ofList text)
  | none => .error (.unreadable path)

variable {m : Type → Type} [Monad m]

/-- Load the settings in a file. -/
def loadFile (host : Host m) (path : String) : m (Except SettingsError Settings) := do
  match ← host.readFile path with
  | .ok bytes => return ofBytes path bytes
  | .error _ => return .error (.unreadable path)

/-- The first of some files that is there. -/
def firstPresent (host : Host m) : List String → m (Option String)
  | [] => return none
  | path :: rest => do
      if ← host.has path then return some path else firstPresent host rest

/-- Load settings, if there are any. -/
def load (host : Host m) (path : Option String) : m (Except SettingsError (Option Settings)) := do
  let chosen ←
    match path with
    | some path => pure (some path)
    | none => firstPresent host usualFiles
  match chosen with
  | some path => return (← loadFile host path).map some
  | none => return .ok none

end MetricRates.Settings
