import MetricRates.Sample.Reading

/-!
# Headers and rows

A header locates each column at the first field that names it.  A row is accepted
exactly when its name, its label, its time and its value can be read; a row of
which only the time cannot be read is told apart, and all others are malformed.
-/

namespace MetricRates

open Text Time Number

/-! ## Headers -/

/-- A position is that of the first field that names a column. -/
structure IsColumnAt (column : String) (fields : List String) (position : Nat) : Prop where
  named : ∃ field, fields[position]? = some field ∧ namesColumn column field
  first : ∀ earlier < position, ∀ field, fields[earlier]? = some field →
    ¬ namesColumn column field

/-- Some field names a column. -/
def HasColumn (fields : List String) (column : String) : Prop :=
  ∃ field ∈ fields, namesColumn column field

instance (fields : List String) (column : String) : Decidable (HasColumn fields column) :=
  inferInstanceAs (Decidable (∃ field ∈ fields, _))

theorem columnPosition?_eq_some_iff {column : String} {fields : List String} {position : Nat} :
    columnPosition? column fields = some position ↔ IsColumnAt column fields position := by
  rw [columnPosition?, List.findIdx?_eq_some_iff_getElem]
  constructor
  · rintro ⟨inFields, named, first⟩
    refine ⟨⟨_, List.getElem?_eq_getElem inFields, named⟩, fun earlier before field found => ?_⟩
    obtain ⟨inFieldsToo, rfl⟩ := List.getElem?_eq_some_iff.mp found
    exact first earlier before
  · rintro ⟨⟨field, found, named⟩, first⟩
    obtain ⟨inFields, rfl⟩ := List.getElem?_eq_some_iff.mp found
    refine ⟨inFields, named, fun earlier before => ?_⟩
    exact first earlier before _ (List.getElem?_eq_getElem (Nat.lt_trans before inFields))

theorem columnPosition?_eq_none_iff {column : String} {fields : List String} :
    columnPosition? column fields = none ↔ ¬ HasColumn fields column := by
  simp [columnPosition?, HasColumn]

/-- The columns that every header has to name, in the order in which they are
looked for. -/
def requiredColumns : List String :=
  ["time", "name", "value"]

/-- The first required column that no field names. -/
def firstMissingColumn? (fields : List String) : Option String :=
  requiredColumns.find? fun column => decide (¬ HasColumn fields column)

theorem hasColumn_of_columnPosition? {column : String} {fields : List String} {position : Nat}
    (found : columnPosition? column fields = some position) : HasColumn fields column := by
  obtain ⟨field, atPosition, named⟩ := (columnPosition?_eq_some_iff.mp found).named
  exact ⟨field, List.mem_of_getElem? atPosition, named⟩

namespace Header

/-- A header locates the columns among some fields. -/
structure Locates (header : Header) (fields : List String) : Prop where
  time : IsColumnAt "time" fields header.time
  name : IsColumnAt "name" fields header.name
  value : IsColumnAt "value" fields header.value
  label : ∀ position, header.label = some position ↔ IsColumnAt "label" fields position

/-- A header is read exactly when no required column is missing, and otherwise the
first missing one is told. -/
theorem ofFields_outcome (fields : List String) :
    (∃ header, ofFields fields = .ok header ∧ header.Locates fields ∧
        firstMissingColumn? fields = none) ∨
      ∃ column, ofFields fields = .error (.missingColumn column) ∧
        firstMissingColumn? fields = some column := by
  have lacks {column : String} (unfound : columnPosition? column fields = none) :
      ¬ HasColumn fields column := columnPosition?_eq_none_iff.mp unfound
  have has {column : String} {position : Nat}
      (found : columnPosition? column fields = some position) :
      HasColumn fields column := hasColumn_of_columnPosition? found
  simp only [ofFields, requiredColumn, firstMissingColumn?, requiredColumns]
  cases time : columnPosition? "time" fields with
  | none => exact .inr ⟨"time", rfl, by simp [lacks time]⟩
  | some timeAt =>
      cases name : columnPosition? "name" fields with
      | none => exact .inr ⟨"name", rfl, by simp [has time, lacks name]⟩
      | some nameAt =>
          cases value : columnPosition? "value" fields with
          | none => exact .inr ⟨"value", rfl, by simp [has time, has name, lacks value]⟩
          | some valueAt =>
              refine .inl ⟨_, rfl, ⟨?_, ?_, ?_, ?_⟩, by simp [has time, has name, has value]⟩
              · exact columnPosition?_eq_some_iff.mp time
              · exact columnPosition?_eq_some_iff.mp name
              · exact columnPosition?_eq_some_iff.mp value
              · exact fun _ => columnPosition?_eq_some_iff

/-! ## Rows -/

/-- The fields have a name that is not blank. -/
def HasName (header : Header) (fields : List String) (name : String) : Prop :=
  ∃ field, fields[header.name]? = some field ∧ allBlank field.toList = false ∧ trim field = name

/-- The fields have a label, which is empty where the header has no labels. -/
def HasLabel (header : Header) (fields : List String) (label : String) : Prop :=
  match header.label with
  | some position => ∃ field, fields[position]? = some field ∧ trim field = label
  | none => label = ""

/-- The fields have a time, and it denotes an instant or not. -/
def HasTime (header : Header) (fields : List String) (time : Option Timestamp) : Prop :=
  ∃ field, fields[header.time]? = some field ∧ Timestamp.ofText? field = time

/-- The fields have a value that is a finite number. -/
def HasValue (header : Header) (fields : List String) (value : Float) : Prop :=
  ∃ field, fields[header.value]? = some field ∧
    readFloat? (trimChars field.toList) = some value ∧ value.isFinite

/-- All parts of a sample can be read from the fields. -/
structure Accepts (header : Header) (fields : List String) (sample : Sample) : Prop where
  name : header.HasName fields sample.metric
  label : header.HasLabel fields sample.label
  time : header.HasTime fields (some sample.time)
  value : header.HasValue fields sample.value

/-- The name and the label can be read from the fields, but not the time. -/
structure LacksInstant (header : Header) (fields : List String) : Prop where
  name : ∃ name, header.HasName fields name
  label : ∃ label, header.HasLabel fields label
  time : header.HasTime fields none

/-- What becomes of a row: exactly the rows of which all parts can be read are
accepted, those of which only the name and the label are looked at before the time
fails are told apart, and all others are malformed. -/
structure Judges (header : Header) (fields : List String) (outcome : RowOutcome) : Prop where
  accepted : ∀ sample, outcome = .accepted sample ↔ header.Accepts fields sample
  unparseableTime : outcome = .unparseableTime ↔ header.LacksInstant fields
  malformed : outcome = .malformed ↔
    (∀ sample, ¬ header.Accepts fields sample) ∧ ¬ header.LacksInstant fields

variable {header : Header} {fields : List String}

theorem nameOf?_eq_some_iff {name : String} :
    header.nameOf? fields = some name ↔ header.HasName fields name := by
  unfold nameOf? HasName
  cases fields[header.name]? with
  | none => simp
  | some field => by_cases blank : allBlank field.toList <;> simp [blank]

theorem labelOf?_eq_some_iff {label : String} :
    header.labelOf? fields = some label ↔ header.HasLabel fields label := by
  unfold labelOf? HasLabel
  cases header.label with
  | none => simp [eq_comm]
  | some position => simp

theorem timeOf?_eq_some_iff {time : Option Timestamp} :
    (fields[header.time]?).map Timestamp.ofText? = some time ↔ header.HasTime fields time :=
  Option.map_eq_some_iff

theorem valueOf?_eq_some_iff {value : Float} :
    header.valueOf? fields = some value ↔ header.HasValue fields value := by
  unfold valueOf? HasValue
  cases fields[header.value]? with
  | none => simp
  | some field =>
      simp only [Option.bind_some, Option.some.injEq, exists_eq_left']
      cases readFloat? (trimChars field.toList) with
      | none => simp
      | some read =>
          simp only [Option.some.injEq]
          split
          · rename_i finite
            rw [Option.some.injEq]
            exact ⟨fun same => ⟨same, same ▸ finite⟩, And.left⟩
          · rename_i infinite
            exact ⟨nofun, fun ⟨same, finite⟩ => absurd (same ▸ finite) infinite⟩

theorem accepts_iff {sample : Sample} :
    header.Accepts fields sample ↔
      header.nameOf? fields = some sample.metric ∧ header.labelOf? fields = some sample.label ∧
        (fields[header.time]?).map Timestamp.ofText? = some (some sample.time) ∧
          header.valueOf? fields = some sample.value := by
  rw [nameOf?_eq_some_iff, labelOf?_eq_some_iff, timeOf?_eq_some_iff, valueOf?_eq_some_iff]
  exact ⟨fun ⟨name, label, time, value⟩ => ⟨name, label, time, value⟩,
    fun ⟨name, label, time, value⟩ => ⟨name, label, time, value⟩⟩

theorem lacksInstant_iff :
    header.LacksInstant fields ↔
      (header.nameOf? fields).isSome ∧ (header.labelOf? fields).isSome ∧
        (fields[header.time]?).map Timestamp.ofText? = some none := by
  rw [Option.isSome_iff_exists, Option.isSome_iff_exists, timeOf?_eq_some_iff]
  simp only [nameOf?_eq_some_iff, labelOf?_eq_some_iff]
  exact ⟨fun ⟨name, label, time⟩ => ⟨name, label, time⟩,
    fun ⟨name, label, time⟩ => ⟨name, label, time⟩⟩

/-- A row gives a sample exactly when it is accepted with it. -/
theorem readRow_eq_accepted_iff {sample : Sample} :
    header.readRow fields = .accepted sample ↔ header.Accepts fields sample := by
  rw [accepts_iff]
  fun_cases readRow header fields with
  | case1 metric label text timed labelled named untimed => simp [timed, untimed]
  | case2 metric label text timed labelled named time instant value valued =>
      cases sample
      simp [timed, labelled, named, instant, valued]
  | case3 metric label text timed labelled named time instant unvalued => simp [unvalued]
  | case4 incomplete =>
      simp only [reduceCtorEq, false_iff]
      rintro ⟨named, labelled, instant, -⟩
      obtain ⟨text, timed, -⟩ := Option.map_eq_some_iff.mp instant
      exact incomplete _ _ _ named labelled timed

/-- A row is dropped for its time exactly when only the time cannot be read. -/
theorem readRow_eq_unparseableTime_iff :
    header.readRow fields = .unparseableTime ↔ header.LacksInstant fields := by
  rw [lacksInstant_iff]
  fun_cases readRow header fields with
  | case1 metric label text timed labelled named untimed =>
      simp [timed, labelled, named, untimed]
  | case2 metric label text timed labelled named time instant value valued =>
      simp [timed, instant]
  | case3 metric label text timed labelled named time instant unvalued => simp [timed, instant]
  | case4 incomplete =>
      simp only [reduceCtorEq, false_iff, Option.isSome_iff_exists]
      rintro ⟨⟨name, named⟩, ⟨label, labelled⟩, untimed⟩
      obtain ⟨text, timed, -⟩ := Option.map_eq_some_iff.mp untimed
      exact incomplete _ _ _ named labelled timed

theorem readRow_ne_illFormedText (header : Header) (fields : List String) (validBytes : Nat) :
    header.readRow fields ≠ .illFormedText validBytes := by
  fun_cases readRow header fields <;> nofun

/-- Reading a row judges it. -/
theorem judges_readRow (header : Header) (fields : List String) :
    header.Judges fields (header.readRow fields) where
  accepted _ := readRow_eq_accepted_iff
  unparseableTime := readRow_eq_unparseableTime_iff
  malformed := by
    simp only [← readRow_eq_accepted_iff, ← readRow_eq_unparseableTime_iff]
    cases outcome : header.readRow fields with
    | illFormedText validBytes => exact absurd outcome (header.readRow_ne_illFormedText _ _)
    | _ => simp

end Header

end MetricRates
