import MetricRates.Error
import MetricRates.Settings.Value

/-!
# Records

A record has fields of known names.  It is written as a table, in which unknown
names do not count and no known name may come twice, or as a list of the fields
in their order.
-/

namespace MetricRates.Settings

/-- The fields of a record that are written. -/
structure Record where
  fields : List (String × Value)

/-- The names of the fields of a record, and how many of them a list has at
least. -/
structure RecordForm where
  names : List String
  least : Nat

/-- The record that a table denotes. -/
def RecordForm.ofTable? (form : RecordForm) (fields : List (String × Value)) :
    Option Record :=
  let known := fields.filter fun field => decide (field.1 ∈ form.names)
  if (known.map Prod.fst).Nodup then some ⟨known⟩ else none

/-- Whether a list of a length denotes a record; in TOML what follows the
fields does not count. -/
def RecordForm.admits (form : RecordForm) (format : SettingsFormat) (length : Nat) : Bool :=
  form.least ≤ length &&
    match format with
    | .toml => true
    | .json => length ≤ form.names.length

/-- The record that a value denotes. -/
def RecordForm.ofValue? (form : RecordForm) (format : SettingsFormat) :
    Value → Option Record
  | .table fields => form.ofTable? fields
  | .array items =>
      if form.admits format items.length then some ⟨form.names.zip items⟩ else none
  | _ => none

/-- The value of a field, if it is written. -/
def Record.get? (record : Record) (name : String) : Option Value :=
  record.fields.lookup name

/-- A field that may be left unset: read with a decoder, where null stands for
unset. -/
def Record.optional {α : Type} (record : Record) (decode : Value → Option α)
    (name : String) : Option (Option α) :=
  match record.get? name with
  | none | some .null => some none
  | some value => (decode value).map some

end MetricRates.Settings
