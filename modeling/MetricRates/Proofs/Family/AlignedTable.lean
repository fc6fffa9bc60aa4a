import MetricRates.Proofs.Family.LatestObservation
import MetricRates.Proofs.Family.Processing
import MetricRates.Proofs.Family.Sorted
import MetricRates.Proofs.Family.StageOrder

/-!
# What aligned tables have in common

An aligned table has at least one row and one column, its instants ascend, its
names do not repeat, and a column that has a value has one in every later row.
Arranging the columns and scaling the values keep all of this.
-/

namespace MetricRates

open Time

/-! ## Instants by position -/

namespace Table

variable {table : Table Float} {row : Nat}

theorem timeAt_eq_getElem (inTable : row < table.rowCount) :
    table.timeAt row = table.index[row] := by
  rw [timeAt, List.getElem?_eq_getElem inTable]
  rfl

theorem timeAt_mem (inTable : row < table.rowCount) : table.timeAt row ∈ table.index := by
  rw [timeAt_eq_getElem inTable]
  exact List.getElem_mem inTable

theorem map_timeAt_range (table : Table Float) :
    (List.range table.rowCount).map table.timeAt = table.index := by
  apply List.ext_getElem (by simp [rowCount])
  intro row inRange inTable
  rw [List.getElem_map, List.getElem_range, timeAt_eq_getElem inTable]

theorem exists_timeAt_eq {time : Timestamp} (member : time ∈ table.index) :
    ∃ row < table.rowCount, table.timeAt row = time := by
  obtain ⟨row, inTable, atRow⟩ := List.getElem_of_mem member
  exact ⟨row, inTable, (timeAt_eq_getElem inTable).trans atRow⟩

theorem timeAt_lt {earlier later : Nat} (ascending : table.index.Pairwise (· < ·))
    (less : earlier < later) (inTable : later < table.rowCount) :
    table.timeAt earlier < table.timeAt later := by
  rw [timeAt_eq_getElem inTable, timeAt_eq_getElem (Nat.lt_trans less inTable)]
  exact List.pairwise_iff_getElem.mp ascending _ _ _ inTable less

theorem timeAt_le {earlier later : Nat} (ascending : table.index.Pairwise (· < ·))
    (le : earlier ≤ later) (inTable : later < table.rowCount) :
    table.timeAt earlier ≤ table.timeAt later := by
  rcases Nat.lt_or_eq_of_le le with less | rfl
  · exact Timestamp.le_of_lt (timeAt_lt ascending less inTable)
  · exact Timestamp.le_refl _

end Table

/-! ## The cells of an aligned table -/

section Cells

variable {aggregation : Aggregation} {leadingFill : LeadingFill} {samples : List Sample}

theorem columns_alignSamples (aggregation : Aggregation) (leadingFill : LeadingFill)
    (samples : List Sample) :
    (alignSamples aggregation leadingFill samples).columns =
      (sampledLabels samples).members.map fun label =>
        { name := label
          cells := (sampledTimes samples).map
            (cellUpTo aggregation leadingFill samples label) } := by
  simp only [alignSamples, carryForward_observations]

/-- A column of an aligned table holds what its label has at the instant of each
row. -/
theorem value?_alignSamples {column : Column Float} {row : Nat}
    (member : column ∈ (alignSamples aggregation leadingFill samples).columns)
    (inTable : row < (alignSamples aggregation leadingFill samples).rowCount) :
    column.value? row =
      cellUpTo aggregation leadingFill samples column.name
        ((alignSamples aggregation leadingFill samples).timeAt row) := by
  rw [Table.timeAt_eq_getElem inTable]
  rw [columns_alignSamples] at member
  obtain ⟨label, _, rfl⟩ := List.mem_map.mp member
  have inIndex : row < (sampledTimes samples).length := inTable
  simp [Column.value?, inIndex, alignSamples]

/-- A label has a value once it was sampled, and always under the zero fill. -/
theorem isSome_cellUpTo_iff {label : String} {time : Timestamp} :
    (cellUpTo aggregation leadingFill samples label time).isSome ↔
      leadingFill = .zero ∨
        ∃ sample ∈ samples, sample.label = label ∧ sample.time ≤ time := by
  have held := alignedCell_cellUpTo aggregation leadingFill samples label time
  generalize cellUpTo aggregation leadingFill samples label time = cell at held ⊢
  cases held with
  | observed isLatest =>
      obtain ⟨sample, member, named, rfl⟩ := isLatest.sampled
      exact iff_of_true rfl (.inr ⟨sample, member, named, isLatest.upTo⟩)
  | leadingAbsent fill unsampled =>
      have never : ¬ ∃ sample ∈ samples, sample.label = label ∧ sample.time ≤ time := by
        rintro ⟨sample, member, named, upTo⟩
        exact Timestamp.not_le.mpr (unsampled sample member named) upTo
      simp [fill, never]
  | leadingZero fill => exact iff_of_true rfl (.inl fill)

end Cells

/-! ## Aligned tables -/

/-- What holds of an aligned table, whatever its columns are called and however
its values are scaled. -/
structure Table.WellAligned (leadingFill : LeadingFill) (table : Table Float) : Prop where
  index_ne_nil : table.index ≠ []
  columns_ne_nil : table.columns ≠ []
  ascending : table.index.Pairwise (· < ·)
  names_nodup : table.names.Nodup
  row_present : ∀ row < table.rowCount, ∃ column ∈ table.columns, (column.value? row).isSome
  column_present : ∀ column ∈ table.columns, ∃ row < table.rowCount, (column.value? row).isSome
  carried : ∀ column ∈ table.columns, ∀ earlier later, earlier ≤ later →
    later < table.rowCount → (column.value? earlier).isSome → (column.value? later).isSome
  filled : leadingFill = .zero →
    ∀ column ∈ table.columns, ∀ row < table.rowCount, (column.value? row).isSome

theorem sampledTimes_ne_nil {samples : List Sample} (nonempty : samples ≠ []) :
    sampledTimes samples ≠ [] := by
  obtain ⟨sample, member⟩ := List.exists_mem_of_ne_nil samples nonempty
  exact List.ne_nil_of_mem (mem_sampledTimes.mpr ⟨sample, member, rfl⟩)

/-- Aligning some samples gives an aligned table. -/
theorem wellAligned_alignSamples (aggregation : Aggregation) (leadingFill : LeadingFill)
    {samples : List Sample} (nonempty : samples ≠ []) :
    (alignSamples aggregation leadingFill samples).WellAligned leadingFill where
  index_ne_nil := sampledTimes_ne_nil nonempty
  columns_ne_nil := by
    obtain ⟨sample, member⟩ := List.exists_mem_of_ne_nil samples nonempty
    have labelled := mem_sampledLabels.mpr ⟨sample, member, rfl⟩
    rw [columns_alignSamples]
    exact List.ne_nil_of_mem (List.mem_map_of_mem labelled)
  ascending := sampledTimes_ascending samples
  names_nodup := by
    rw [names_alignSamples]
    exact nodup_of_ascending (fun _ _ => String.lt_asymm) (sampledLabels samples).ascending
  row_present := by
    intro row inTable
    obtain ⟨sample, member, atTime⟩ := mem_sampledTimes.mp (Table.timeAt_mem inTable)
    have labelled := mem_sampledLabels.mpr ⟨sample, member, rfl⟩
    have column := List.mem_map_of_mem (f := fun label => Column.mk label
      ((sampledTimes samples).map (cellUpTo aggregation leadingFill samples label))) labelled
    rw [← columns_alignSamples] at column
    refine ⟨_, column, ?_⟩
    rw [value?_alignSamples column inTable, isSome_cellUpTo_iff]
    exact .inr ⟨sample, member, rfl, atTime ▸ Timestamp.le_refl _⟩
  column_present := by
    intro column member
    have named : column.name ∈ (alignSamples aggregation leadingFill samples).names :=
      List.mem_map_of_mem member
    rw [names_alignSamples, mem_sampledLabels] at named
    obtain ⟨sample, inSamples, ofColumn⟩ := named
    have sampled : sample.time ∈ (alignSamples aggregation leadingFill samples).index :=
      mem_sampledTimes.mpr ⟨sample, inSamples, rfl⟩
    obtain ⟨row, inTable, atRow⟩ := Table.exists_timeAt_eq sampled
    refine ⟨row, inTable, ?_⟩
    rw [value?_alignSamples member inTable, isSome_cellUpTo_iff]
    exact .inr ⟨sample, inSamples, ofColumn, atRow ▸ Timestamp.le_refl _⟩
  carried := by
    intro column member earlier later le inTable present
    rw [value?_alignSamples member (Nat.lt_of_le_of_lt le inTable), isSome_cellUpTo_iff] at present
    rw [value?_alignSamples member inTable, isSome_cellUpTo_iff]
    refine present.imp_right ?_
    rintro ⟨sample, inSamples, named, upTo⟩
    exact ⟨sample, inSamples, named, Timestamp.le_trans upTo
      (Table.timeAt_le (sampledTimes_ascending samples) le inTable)⟩
  filled := by
    intro zero column member row inTable
    rw [value?_alignSamples member inTable, isSome_cellUpTo_iff]
    exact .inl zero

/-! ## Arranging and scaling -/

namespace Table.WellAligned

variable {leadingFill : LeadingFill} {first second table : Table Float}

/-- The order of the columns does not matter. -/
theorem of_sameColumns (wellAligned : first.WellAligned leadingFill)
    (same : SameColumns second first) : second.WellAligned leadingFill where
  index_ne_nil := same.index ▸ wellAligned.index_ne_nil
  columns_ne_nil empty :=
    wellAligned.columns_ne_nil (List.nil_perm.mp (empty ▸ same.columns))
  ascending := same.index ▸ wellAligned.ascending
  names_nodup := (same.columns.map Column.name).nodup_iff.mpr wellAligned.names_nodup
  row_present := by
    intro row inTable
    obtain ⟨column, member, present⟩ := wellAligned.row_present row (same.rowCount ▸ inTable)
    exact ⟨column, same.columns.mem_iff.mpr member, present⟩
  column_present := by
    intro column member
    rw [same.rowCount]
    exact wellAligned.column_present column (same.columns.mem_iff.mp member)
  carried := by
    intro column member
    rw [same.rowCount]
    exact wellAligned.carried column (same.columns.mem_iff.mp member)
  filled := by
    intro zero column member
    rw [same.rowCount]
    exact wellAligned.filled zero column (same.columns.mem_iff.mp member)

end Table.WellAligned

/-- Changing the present cells leaves the same cells present. -/
theorem isSome_value?_map (f : Float → Float) (column : Column Float) (row : Nat) :
    (({ column with cells := column.cells.map fun cell => cell.map f } :
      Column Float).value? row).isSome = (column.value? row).isSome := by
  simp only [Column.value?, List.getElem?_map]
  rcases column.cells[row]? with _ | _ | _ <;> rfl

theorem Table.WellAligned.mapPresent {leadingFill : LeadingFill} {table : Table Float}
    (wellAligned : table.WellAligned leadingFill) (f : Float → Float) :
    (table.mapPresent f).WellAligned leadingFill where
  index_ne_nil := wellAligned.index_ne_nil
  columns_ne_nil := by simpa [Table.mapPresent] using wellAligned.columns_ne_nil
  ascending := wellAligned.ascending
  names_nodup := by simpa using wellAligned.names_nodup
  row_present := by
    intro row inTable
    obtain ⟨column, member, present⟩ := wellAligned.row_present row inTable
    exact ⟨_, List.mem_map_of_mem member, (isSome_value?_map f column row).trans present⟩
  column_present := by
    intro changed member
    obtain ⟨column, inTable, rfl⟩ := List.mem_map.mp member
    simp only [isSome_value?_map]
    exact wellAligned.column_present column inTable
  carried := by
    intro changed member
    obtain ⟨column, inTable, rfl⟩ := List.mem_map.mp member
    simp only [isSome_value?_map]
    exact wellAligned.carried column inTable
  filled := by
    intro zero changed member
    obtain ⟨column, inTable, rfl⟩ := List.mem_map.mp member
    simp only [isSome_value?_map]
    exact wellAligned.filled zero column inTable

/-- Arranging under a policy gives the same columns in another order. -/
theorem sameColumns_of_arrangeUnder {order : List String} {policy : OrderPolicy}
    {metric : String} {table arranged : Table Float}
    (succeeded : table.arrangeUnder order policy metric = .ok arranged) :
    SameColumns arranged table := by
  unfold Table.arrangeUnder at succeeded
  split at succeeded
  · cases succeeded
  · cases succeeded
    exact sameColumns_arrange order table

namespace FamilySpec

variable {spec : FamilySpec} {table arranged : Table Float}

theorem sameColumns_of_arrange (succeeded : spec.arrange table = .ok arranged) :
    SameColumns arranged table := by
  unfold arrange at succeeded
  split at succeeded
  · cases succeeded
    exact ⟨rfl, List.Perm.refl _⟩
  · exact sameColumns_of_arrangeUnder succeeded

/-- A change of columns under their names can be made before a family arranges them or
afterwards. -/
theorem arrange_of_changesColumns {change : Table Float → Table Float}
    {f : Column Float → Column Float} (changes : Table.ChangesColumns change f)
    (spec : FamilySpec) (table : Table Float) :
    spec.arrange (change table) = (spec.arrange table).map change := by
  unfold arrange
  split
  · rfl
  · exact changes.arrangeUnder _ _ _ _

/-- Deriving keeps the names of the columns. -/
theorem names_derive (spec : FamilySpec) (table : Table Float) :
    (spec.derive table).table.names = table.names := by
  rw [Table.names, derive, columns_derive, List.map_map, Table.names]
  apply List.map_congr_left
  intro column _
  exact name_derivedColumn _ _ _ _ table column

end FamilySpec

end MetricRates
