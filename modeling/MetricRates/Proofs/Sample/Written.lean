import MetricRates.Proofs.Csv.Quoting
import MetricRates.Proofs.Sample.Accounting

/-!
# Written samples are read back

Samples are written below a header of any layout: the columns stand in any order, in
any letter case, with blank ends and among other columns.  Each row has below every
column what its sample has there; times and values in any text that denotes them.
Reading such a text gives the samples in order, and no row is dropped.
-/

namespace MetricRates

open Text Time Number Csv

/-! ## The lines of a written text -/

/-- Lines of fields, each ended by a newline. -/
def Csv.writeText (lines : List (List String)) : String :=
  String.join (lines.map fun fields => writeLine fields ++ "\n")

theorem toList_writeText_cons (fields : List String) (lines : List (List String)) :
    (writeText (fields :: lines)).toList =
      lineChars (fields.map String.toList) ++ '\n' :: (writeText lines).toList := by
  simp [writeText, String.toList_join, toList_writeLine]

theorem stripLineEnd_of_not_endsLine {line : List Char} (inner : ¬ EndsLine line) :
    stripLineEnd line = line := by
  refine List.rdropWhile_eq_self_iff.mpr fun nonempty ends => inner ?_
  refine ⟨line.getLast nonempty, List.getLast?_eq_some_getLast nonempty, ?_⟩
  simpa using ends

/-- No field holds a newline. -/
def Unbroken (fields : List String) : Prop :=
  ∀ field ∈ fields, '\n' ∉ field.toList

/-- Some field has a character that is not blank. -/
def Visible (fields : List String) : Prop :=
  ∃ field ∈ fields, allBlank field.toList = false

theorem newline_not_mem_lineChars {fields : List String} (unbroken : Unbroken fields) :
    '\n' ∉ lineChars (fields.map String.toList) := by
  intro member
  obtain ⟨_, listed, held⟩ := mem_of_mem_lineChars (by decide) (by decide) member
  obtain ⟨field, inFields, rfl⟩ := List.mem_map.mp listed
  exact unbroken field inFields held

/-- A written text is cut into its lines, with nothing behind the last newline. -/
theorem cutAt_writeText {lines : List (List String)}
    (unbroken : ∀ fields ∈ lines, Unbroken fields) :
    cutAt '\n' (writeText lines).toList =
      lines.map (fun fields => (writeLine fields).toList) ++ [[]] := by
  induction lines with
  | nil => rfl
  | cons fields lines ih =>
      obtain ⟨unbroken, laterUnbroken⟩ := List.forall_mem_cons.mp unbroken
      rw [toList_writeText_cons, cutAt_append (newline_not_mem_lineChars unbroken),
        ih laterUnbroken, List.map_cons, toList_writeLine]
      rfl

theorem allBlank_lineChars {fields : List String} (visible : Visible fields) :
    allBlank (lineChars (fields.map String.toList)) = false := by
  obtain ⟨field, inFields, shown⟩ := visible
  obtain ⟨c, member, solid⟩ := List.all_eq_false.mp shown
  exact List.all_eq_false.mpr
    ⟨c, mem_lineChars_of_mem (List.mem_map_of_mem inFields) member, solid⟩

/-- The content lines of a written text are the lines that were written. -/
theorem contentLines_writeText {lines : List (List String)}
    (unbroken : ∀ fields ∈ lines, Unbroken fields) (visible : ∀ fields ∈ lines, Visible fields) :
    contentLines (writeText lines) = lines.map fun fields => (writeLine fields).toList := by
  have stripped : ∀ fields ∈ lines,
      stripLineEnd (writeLine fields).toList = (writeLine fields).toList := by
    intro fields _
    rw [toList_writeLine]
    exact stripLineEnd_of_not_endsLine (not_endsLine_lineChars _)
  have shown : ∀ fields ∈ lines, allBlank (writeLine fields).toList = false := by
    intro fields listed
    rw [toList_writeLine]
    exact allBlank_lineChars (visible fields listed)
  have kept : (lines.map fun fields => (writeLine fields).toList).filter (!allBlank ·) =
      lines.map fun fields => (writeLine fields).toList := by
    rw [List.filter_eq_self, List.forall_mem_map]
    intro fields listed
    rw [shown fields listed, Bool.not_false]
  rw [contentLines, ← cutAt_eq_splitOn, cutAt_writeText unbroken, List.map_append, List.map_map,
    Function.comp_def, List.map_congr_left stripped, List.filter_append, kept]
  exact List.append_nil _

theorem fieldsOf_writeLine {fields : List String} (visible : Visible fields) :
    fieldsOf (writeLine fields).toList = fields := by
  obtain ⟨field, inFields, -⟩ := visible
  rw [fieldsOf, String.ofList_toList, splitFields_writeLine (List.ne_nil_of_mem inFields)]

/-- The outcomes of a written text are those of the fields that were written. -/
theorem readText_writeText_outcomes {columns : List String} {rows : List (List String)}
    (unbroken : ∀ fields ∈ columns :: rows, Unbroken fields)
    (visible : ∀ fields ∈ columns :: rows, Visible fields) :
    (readText (writeText (columns :: rows))).map Reading.outcomes =
      (Header.ofFields columns).map fun header => rows.map header.readRow := by
  have row (header : Header) :
      (rows.map fun fields => (writeLine fields).toList).map
          (fun line => header.readRow (fieldsOf line)) = rows.map header.readRow := by
    rw [List.map_map]
    refine List.map_congr_left fun fields listed => ?_
    rw [Function.comp_apply, fieldsOf_writeLine (visible fields (List.mem_cons_of_mem _ listed))]
  rw [readText_outcomes, contentLines_writeText unbroken visible, List.map_cons]
  simp only [row, fieldsOf_writeLine (visible columns List.mem_cons_self)]

/-! ## Samples below a header -/

/-- The columns of a sample. -/
def sampleColumns : List String :=
  ["time", "name", "label", "value"]

/-- A sample whose texts have no blank ends, with a name and a finite value. -/
structure Sample.Storable (sample : Sample) : Prop where
  named : sample.metric ≠ ""
  metric : trim sample.metric = sample.metric
  label : trim sample.label = sample.label
  finite : sample.value.isFinite

/-- A field has what a sample has in a column; below other columns stands anything. -/
structure FieldFits (sample : Sample) (column field : String) : Prop where
  time : namesColumn "time" column → Timestamp.ofText? field = some sample.time
  name : namesColumn "name" column → field = sample.metric
  label : namesColumn "label" column → field = sample.label
  value : namesColumn "value" column → readFloat? (trimChars field.toList) = some sample.value

instance (sample : Sample) : Decidable sample.Storable :=
  decidable_of_iff
    (sample.metric ≠ "" ∧ trim sample.metric = sample.metric ∧
      trim sample.label = sample.label ∧ sample.value.isFinite)
    ⟨fun ⟨named, metric, label, finite⟩ => ⟨named, metric, label, finite⟩,
      fun ⟨named, metric, label, finite⟩ => ⟨named, metric, label, finite⟩⟩

instance (sample : Sample) (column field : String) : Decidable (FieldFits sample column field) :=
  decidable_of_iff
    ((namesColumn "time" column → Timestamp.ofText? field = some sample.time) ∧
      (namesColumn "name" column → field = sample.metric) ∧
      (namesColumn "label" column → field = sample.label) ∧
      (namesColumn "value" column → readFloat? (trimChars field.toList) = some sample.value))
    ⟨fun ⟨time, name, label, value⟩ => ⟨time, name, label, value⟩,
      fun ⟨time, name, label, value⟩ => ⟨time, name, label, value⟩⟩

/-- A row has below every column what a sample has there. -/
def RowFits (columns fields : List String) (sample : Sample) : Prop :=
  List.Forall₂ (FieldFits sample) columns fields

instance (columns fields : List String) (sample : Sample) :
    Decidable (RowFits columns fields sample) :=
  inferInstanceAs (Decidable (List.Forall₂ _ _ _))

theorem allBlank_metric {sample : Sample} (storable : sample.Storable) :
    allBlank sample.metric.toList = false := by
  rw [Bool.eq_false_iff, ne_eq, ← trimChars_eq_nil_iff, ← toList_trim, storable.metric]
  simpa using storable.named

theorem RowFits.field {columns fields : List String} {sample : Sample}
    (fits : RowFits columns fields sample) {column : String} {position : Nat}
    (located : IsColumnAt column columns position) :
    ∃ name field, namesColumn column name ∧ fields[position]? = some field ∧
      FieldFits sample name field := by
  obtain ⟨name, found, named⟩ := located.named
  obtain ⟨inColumns, rfl⟩ := List.getElem?_eq_some_iff.mp found
  have inFields : position < fields.length := fits.length_eq ▸ inColumns
  exact ⟨_, fields[position], named, List.getElem?_eq_getElem inFields,
    fits.get inColumns inFields⟩

/-- The row of a sample is accepted with it. -/
theorem accepts_of_rowFits {header : Header} {columns fields : List String} {sample : Sample}
    (located : header.Locates columns) (labelled : HasColumn columns "label")
    (storable : sample.Storable) (fits : RowFits columns fields sample) :
    header.Accepts fields sample where
  name := by
    obtain ⟨_, field, named, found, fit⟩ := fits.field located.name
    obtain rfl := fit.name named
    exact ⟨_, found, allBlank_metric storable, storable.metric⟩
  label := by
    unfold Header.HasLabel
    cases position : header.label with
    | none =>
        obtain ⟨position', first⟩ := Option.ne_none_iff_exists'.mp
          (mt columnPosition?_eq_none_iff.mp (not_not.mpr labelled))
        have absent := (located.label position').mpr (columnPosition?_eq_some_iff.mp first)
        exact absurd (position.symm.trans absent) nofun
    | some position =>
        obtain ⟨_, field, named, found, fit⟩ := fits.field ((located.label _).mp position)
        obtain rfl := fit.label named
        exact ⟨_, found, storable.label⟩
  time := by
    obtain ⟨_, field, named, found, fit⟩ := fits.field located.time
    exact ⟨field, found, fit.time named⟩
  value := by
    obtain ⟨_, field, named, found, fit⟩ := fits.field located.value
    exact ⟨field, found, fit.value named, storable.finite⟩

theorem visible_of_hasColumn {columns : List String} {column : String}
    (present : HasColumn columns column) (named : column ≠ "") : Visible columns := by
  obtain ⟨field, listed, names⟩ := present
  refine ⟨field, listed, Bool.eq_false_iff.mpr fun blank => named ?_⟩
  rw [namesColumn, trimChars_eq_nil_iff.mpr blank, List.map_nil, beq_iff_eq] at names
  exact String.toList_eq_nil_iff.mp names.symm

theorem firstMissingColumn?_of_complete {columns : List String}
    (complete : ∀ column ∈ sampleColumns, HasColumn columns column) :
    firstMissingColumn? columns = none := by
  refine List.find?_eq_none.mpr fun column required => ?_
  simpa using complete column
    ((by decide : requiredColumns ⊆ sampleColumns) required)

/-- Every row of some samples is accepted with its sample. -/
theorem map_readRow_of_fits {header : Header} {columns : List String} {rows : List (List String)}
    {samples : List Sample} (located : header.Locates columns)
    (labelled : HasColumn columns "label") (storable : ∀ sample ∈ samples, sample.Storable)
    (fits : List.Forall₂ (RowFits columns) rows samples) :
    rows.map header.readRow = samples.map RowOutcome.accepted := by
  induction fits with
  | nil => rfl
  | @cons fields sample rows samples fit _ ih =>
      obtain ⟨storable, laterStorable⟩ := List.forall_mem_cons.mp storable
      have accepted := accepts_of_rowFits located labelled storable fit
      rw [List.map_cons, List.map_cons, Header.readRow_eq_accepted_iff.mpr accepted,
        ih laterStorable]

/-- The row of a sample shows the name of the sample. -/
theorem visible_of_rowFits {columns fields : List String} {sample : Sample}
    (named : HasColumn columns "name") (storable : sample.Storable)
    (fits : RowFits columns fields sample) : Visible fields := by
  obtain ⟨position, first⟩ := Option.ne_none_iff_exists'.mp
    (mt columnPosition?_eq_none_iff.mp (not_not.mpr named))
  obtain ⟨_, field, names, found, fit⟩ := fits.field (columnPosition?_eq_some_iff.mp first)
  obtain rfl := fit.name names
  exact ⟨_, List.mem_of_getElem? found, allBlank_metric storable⟩

theorem visible_rows {columns : List String} {rows : List (List String)} {samples : List Sample}
    (named : HasColumn columns "name") (storable : ∀ sample ∈ samples, sample.Storable)
    (fits : List.Forall₂ (RowFits columns) rows samples) : ∀ fields ∈ rows, Visible fields := by
  induction fits with
  | nil => exact List.forall_mem_nil _
  | @cons fields sample rows samples fit _ ih =>
      obtain ⟨storable, laterStorable⟩ := List.forall_mem_cons.mp storable
      exact List.forall_mem_cons.mpr ⟨visible_of_rowFits named storable fit, ih laterStorable⟩

/-- Samples that are written below a header with all columns, in any layout, are read
back in order, and every row is accepted. -/
theorem readText_writeText (columns : List String) (rows : List (List String))
    (samples : List Sample) (complete : ∀ column ∈ sampleColumns, HasColumn columns column)
    (storable : ∀ sample ∈ samples, sample.Storable)
    (fits : List.Forall₂ (RowFits columns) rows samples)
    (unbroken : ∀ fields ∈ columns :: rows, Unbroken fields) :
    ∃ reading, readText (writeText (columns :: rows)) = .ok reading ∧
      reading.samples = samples ∧
      reading.report =
        { rows := samples.length, accepted := samples.length,
          unparseableTimes := 0, malformedRows := 0 } := by
  have named : HasColumn columns "name" := complete "name" (by decide)
  have labelled : HasColumn columns "label" := complete "label" (by decide)
  have visible : ∀ fields ∈ columns :: rows, Visible fields :=
    List.forall_mem_cons.mpr ⟨visible_of_hasColumn named (by decide),
      visible_rows named storable fits⟩
  have outcomes := readText_writeText_outcomes unbroken visible
  rcases Header.ofFields_outcome columns with ⟨header, read, located, -⟩ | ⟨column, -, missing⟩
  · rw [read] at outcomes
    obtain ⟨reading, given, rowOutcomes⟩ := map_eq_ok_iff.mp outcomes
    have rowOutcomes : reading.outcomes = samples.map RowOutcome.accepted :=
      rowOutcomes.trans (map_readRow_of_fits located labelled storable fits)
    have accepted : reading.outcomes.filterMap RowOutcome.sample? = samples := by
      rw [rowOutcomes, List.filterMap_map]
      exact List.filterMap_some
    refine ⟨reading, given, ?_, ?_⟩
    · rw [reading.samples_eq_filterMap_outcomes, accepted]
    · rw [reading.report_eq_counts, accepted, rowOutcomes]
      simp [List.count, List.countP_map, Function.comp_def, RowOutcome.isMalformed]
  · rw [firstMissingColumn?_of_complete complete] at missing
    cases missing

/-- A header with blank ends, mixed case and a column of its own. -/
def noteColumns : List String :=
  [" VALUE", "a \"note\"", "Time\t", "LABEL", "nAme "]

/-- Rows with commas, quotes and carriage returns in their fields. -/
def noteRows : List (List String) :=
  [[" 2.5 ", "time,\"\r", "1970-01-01T00:00:01Z", "say \"x\", y", "cpu,\r0"],
    ["-1e3\r", "", " 5", "", "\""]]

/-- The samples of `noteRows`. -/
def noteSamples : List Sample :=
  [⟨"cpu,\r0", "say \"x\", y", .clamp 1000000000, 2.5⟩, ⟨"\"", "", .clamp 5, -1000⟩]

/-- Quotes, commas and carriage returns come back from below a header in an order of
its own. -/
theorem readText_writeText_noteRows :
    (∀ column ∈ sampleColumns, HasColumn noteColumns column) ∧
      (∀ sample ∈ noteSamples, sample.Storable) ∧
      List.Forall₂ (RowFits noteColumns) noteRows noteSamples ∧
      (∀ fields ∈ noteColumns :: noteRows, Unbroken fields) ∧
      ∃ reading, readText (writeText (noteColumns :: noteRows)) = .ok reading ∧
        reading.samples = noteSamples ∧ reading.report = ⟨2, 2, 0, 0⟩ := by
  have complete : ∀ column ∈ sampleColumns, HasColumn noteColumns column := by decide +kernel
  have storable : ∀ sample ∈ noteSamples, sample.Storable := by decide +kernel
  have fits : List.Forall₂ (RowFits noteColumns) noteRows noteSamples := by decide +kernel
  have unbroken : ∀ fields ∈ noteColumns :: noteRows, Unbroken fields := by
    unfold Unbroken
    decide +kernel
  exact ⟨complete, storable, fits, unbroken,
    readText_writeText noteColumns noteRows noteSamples complete storable fits unbroken⟩

end MetricRates
