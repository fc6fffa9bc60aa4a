import MetricRates.Settings.Basic
import MetricRates.Settings.Json.Document
import MetricRates.Settings.Record
import MetricRates.Settings.Toml.Document

/-!
# Reading settings

The text of a settings document is read into a value, and the value is decoded
into settings.  The two languages differ in how an option may be written as a
table and in how long a list of fields may be.
-/

namespace MetricRates

namespace Settings

/-! ## Values of fields -/

/-- Decode a text. -/
def decodeText : Value → Option String
  | .text value => some value
  | _ => none

/-- Decode a truth value. -/
def decodeBool : Value → Option Bool
  | .bool value => some value
  | _ => none

/-- Decode a natural number. -/
def decodeNat : Value → Option Nat
  | .integer value => if 0 ≤ value then some value.toNat else none
  | _ => none

/-- Decode a number. -/
def decodeFloat : Value → Option Float
  | .float value => some value
  | .integer value => some (Float.ofInt value)
  | _ => none

/-- Decode a list. -/
def decodeList {α : Type} (decode : Value → Option α) : Value → Option (List α)
  | .array items => items.mapM decode
  | _ => none

/-- Whether a value may stand beside the name of an option. -/
def isEmptyPayload : SettingsFormat → Value → Bool
  | .json, .null => true
  | .toml, .table [] => true
  | .toml, .array [] => true
  | _, _ => false

/-- Decode one of the named options: its name, or a table of the name and an
empty value. -/
def decodeNamed (α : Type) [Named α] (format : SettingsFormat) : Value → Option α
  | .text name => Named.ofName? α name
  | .table [(name, payload)] =>
      if isEmptyPayload format payload then Named.ofName? α name else none
  | _ => none

/-! ## Records -/

/-- The fields of the settings of a family. -/
def familyForm : RecordForm where
  names := ["name", "preset", "metric", "labels", "kind", "window", "aggregation",
    "unit_scale", "column_order", "order_policy", "reset_policy", "leading_fill", "chart",
    "title", "unit", "group"]
  least := 16

/-- Decode the fields of a family. -/
def decodeFamilyRecord (format : SettingsFormat) (record : Record) :
    Option FamilySettings := do
  return {
    name := ← record.optional decodeText "name"
    preset := ← record.optional decodeText "preset"
    metric := ← record.optional decodeText "metric"
    labels := ← record.optional (decodeList decodeText) "labels"
    kind := ← record.optional (decodeNamed _ format) "kind"
    window := ← record.optional decodeNat "window"
    aggregation := ← record.optional (decodeNamed _ format) "aggregation"
    unitScale := ← record.optional decodeFloat "unit_scale"
    columnOrder := ← record.optional (decodeList decodeText) "column_order"
    orderPolicy := ← record.optional (decodeNamed _ format) "order_policy"
    resetPolicy := ← record.optional (decodeNamed _ format) "reset_policy"
    leadingFill := ← record.optional (decodeNamed _ format) "leading_fill"
    chart := ← record.optional (decodeNamed _ format) "chart"
    title := ← record.optional decodeText "title"
    unit := ← record.optional decodeText "unit"
    group := ← record.optional decodeText "group" }

/-- Decode the settings of a family.  A date or time counts as a table of
unknown fields. -/
def decodeFamily (format : SettingsFormat) : Value → Option FamilySettings
  | .dateTime => some {}
  | value => do decodeFamilyRecord format (← familyForm.ofValue? format value)

/-- The fields of the settings of a run; a list may leave out the families. -/
def settingsForm : RecordForm where
  names := ["charts_path", "no_charts", "export_csv", "export_json", "window", "families",
    "family"]
  least := 6

/-- Decode the families of a run, which may be left out but not be null. -/
def decodeFamilies (format : SettingsFormat) (record : Record) :
    Option (List FamilySettings) :=
  match record.get? "family" with
  | none => some []
  | some value => decodeList (decodeFamily format) value

/-- Decode the settings of a run. -/
def decode (format : SettingsFormat) (value : Value) : Option Settings := do
  let record ← settingsForm.ofValue? format value
  return {
    chartsPath := ← record.optional decodeText "charts_path"
    noCharts := ← record.optional decodeBool "no_charts"
    exportCsv := ← record.optional decodeText "export_csv"
    exportJson := ← record.optional decodeText "export_json"
    window := ← record.optional decodeNat "window"
    families := ← record.optional (decodeList decodeText) "families"
    family := ← decodeFamilies format record }

/-- Read a document of a settings language. -/
def readDocument? : SettingsFormat → String → Option Value
  | .toml => Toml.readDocument?
  | .json => Json.readDocument?

/-- Read settings. -/
def read? (format : SettingsFormat) (text : String) : Option Settings :=
  (readDocument? format text).bind (decode format)

end Settings

end MetricRates
