import MetricRates.Number.Integer
import MetricRates.Number.Layout

/-!
# Errors

Each part of the program has a type of the causes for which it fails, and one
function that words them.  `RunError` gathers them for a whole run.
-/

namespace MetricRates

/-! ## Values -/

/-- Why a value given by the user is refused. -/
inductive ValueError where
  | invalidBoolean (value : String)
  | tooSmall (least : Nat)
  | invalidNumber (cause : Number.IntegerError)
  | emptyLabel (list : String)
  | emptyLabelList
  | missingInput
  deriving DecidableEq, Repr

/-- The message for a refused value. -/
def ValueError.message : ValueError → String
  | .invalidBoolean value =>
      "Invalid boolean '" ++ value ++ "'. Expected true/false, yes/no, on/off, or 1/0."
  | .tooSmall least => "Value must be >= " ++ toString least ++ "."
  | .invalidNumber cause => "Invalid value: " ++ cause.message
  | .emptyLabel list => "Empty entry in label list '" ++ list ++ "'."
  | .emptyLabelList => "Label list must name at least one label."
  | .missingInput => "Missing INPUT (a metrics CSV file)."

/-! ## Files -/

/-- Why an operation on files fails. -/
inductive DiskError where
  | notFound
  | notDirectory
  | isDirectory
  | alreadyExists
  | nameTooLong
  | invalidName
  | other (text : String)
  deriving DecidableEq, Repr

/-- The number, the name and the text of a failure that the system reports. -/
def DiskError.report? : DiskError → Option (Nat × String × String)
  | .notFound => some (2, "NotFound", "No such file or directory")
  | .alreadyExists => some (17, "AlreadyExists", "File exists")
  | .notDirectory => some (20, "NotADirectory", "Not a directory")
  | .isDirectory => some (21, "IsADirectory", "Is a directory")
  | .nameTooLong => some (36, "InvalidFilename", "File name too long")
  | .invalidName | .other _ => none

/-- The message for a failure that the system does not report. -/
def DiskError.plainText : DiskError → String
  | .other text => text
  | _ => "file name contained an unexpected NUL byte"

/-- The message for a failed operation on files. -/
def DiskError.message (cause : DiskError) : String :=
  match cause.report? with
  | some (number, _, text) => text ++ " (os error " ++ toString number ++ ")"
  | none => cause.plainText

/-- A failed operation on files with all that is known of it. -/
def DiskError.details (cause : DiskError) : String :=
  match cause.report? with
  | some (number, name, text) =>
      "Os \x7b code: " ++ toString number ++ ", kind: " ++ name ++ ", message: \"" ++ text ++
        "\" \x7d"
  | none => "Error \x7b kind: InvalidInput, message: \"" ++ cause.plainText ++ "\" \x7d"

/-! ## Input -/

/-- The step at which reading a file failed. -/
inductive ReadStep where
  | opening
  | reading
  deriving DecidableEq, Repr

/-- The step in words. -/
def ReadStep.name : ReadStep → String
  | .opening => "open samples file"
  | .reading => "read samples file"

/-- Why the samples cannot be read. -/
inductive InputError where
  | unreadable (step : ReadStep) (path : String) (cause : DiskError)
  | missingHeader
  | missingColumn (column : String)
  deriving DecidableEq, Repr

/-- The message for unreadable samples. -/
def InputError.message : InputError → String
  | .unreadable step path cause =>
      "Failed to " ++ step.name ++ " '" ++ path ++ "': " ++ cause.message
  | .missingHeader => "Input has no header row."
  | .missingColumn column =>
      "Input header is missing the required '" ++ column ++ "' column."

/-! ## Tables -/

/-- Why a table cannot be built. -/
inductive EngineError where
  | emptyInput (metric : String)
  | unlistedInOrder (metric label : String)
  | missingFromData (metric label : String)
  | shapeMismatch (columns cells : Nat)
  | columnLengthMismatch (column : String) (length rows : Nat)
  deriving DecidableEq, Repr

/-- The message for a table that cannot be built. -/
def EngineError.message : EngineError → String
  | .emptyInput metric =>
      "No samples found for metric '" ++ metric ++ "' with the recognized labels."
  | .unlistedInOrder metric label =>
      "Column '" ++ label ++ "' of metric '" ++ metric ++
        "' is present in the data but not in the canonical order."
  | .missingFromData metric label =>
      "Column '" ++ label ++ "' of metric '" ++ metric ++
        "' is listed in the canonical order but never seen in the data."
  | .shapeMismatch columns cells =>
      "Table shape mismatch: " ++ toString columns ++ " column names for " ++
        toString cells ++ " cell columns."
  | .columnLengthMismatch column length rows =>
      "Column '" ++ column ++ "' has " ++ toString length ++
        " cells but the index has " ++ toString rows ++ " rows."

/-! ## Settings -/

/-- The two languages that settings can be written in. -/
inductive SettingsFormat where
  | toml
  | json
  deriving DecidableEq, Repr

/-- The name of a settings language. -/
def SettingsFormat.name : SettingsFormat → String
  | .toml => "TOML"
  | .json => "JSON"

/-- Why the settings do not lead to a list of families. -/
inductive SettingsError where
  | unreadable (path : String)
  | malformed (format : SettingsFormat) (path : String)
  | unsupportedExtension (extension : String)
  | missingExtension
  | unknownFamily (name : String)
  | missingField (family field : String)
  | noLabels (family : String)
  | duplicateFamily (name : String)
  | notPositive (field : String)
  | invalidScale (family : String) (scale : Float)
  | noFamilies
  deriving DecidableEq

/-- The message for settings that do not lead to a list of families. -/
def SettingsError.message : SettingsError → String
  | .unreadable path => "Failed to read config '" ++ path ++ "'"
  | .malformed format path => "Failed to parse " ++ format.name ++ " config '" ++ path ++ "'"
  | .unsupportedExtension extension =>
      "Unsupported config extension '" ++ extension ++ "'. Use .toml or .json."
  | .missingExtension => "Config file must have .toml or .json extension."
  | .unknownFamily name =>
      "Unknown family '" ++ name ++ "'. Run with --list-families to see presets."
  | .missingField family field =>
      "Family '" ++ family ++ "' must set '" ++ field ++ "' (or start from a preset)."
  | .noLabels family => "Family '" ++ family ++ "' must recognize at least one label."
  | .duplicateFamily name => "Family '" ++ name ++ "' is defined more than once."
  | .notPositive field => "Config '" ++ field ++ "' must be >= 1."
  | .invalidScale family scale =>
      "Family '" ++ family ++ "' unit_scale must be finite and non-zero, got " ++
        Number.writePlain scale ++ "."
  | .noFamilies =>
      "No families to report: none were requested and no preset matches the input."

/-! ## Runs -/

/-- Why a run, or a part of one, fails. -/
inductive RunError where
  | value (cause : ValueError)
  | settings (cause : SettingsError)
  | document (format : SettingsFormat)
  | input (cause : InputError)
  | engine (cause : EngineError)
  | disk (cause : DiskError)
  | drawing (cause : DiskError)
  deriving DecidableEq

/-- The message for a failed run. -/
def RunError.message : RunError → String
  | .value cause => "Validation error: " ++ cause.message
  | .settings cause => "Configuration error: " ++ cause.message
  | .document format => format.name ++ " error: invalid document"
  | .input cause => "Input error: " ++ cause.message
  | .engine cause => "Engine error: " ++ cause.message
  | .disk cause => "I/O error: " ++ cause.message
  | .drawing cause =>
      "Plotting error: backend error: Drawing backend error: ImageError(IoError(" ++
        cause.details ++ "))"

end MetricRates
