import MetricRates.Proofs.Family.Accounting
import MetricRates.Proofs.Family.AlignedTable

/-!
# Leading zeros only add rows

Under the zero fill a column has a zero before its first sample instead of an absent
cell.  Where a value was present it stays, so a window that was complete stays complete
with the same rates, and columns are arranged as before.  Rows of rates are only added;
readings get the scaled zero in the cells that were absent.
-/

namespace MetricRates

/-! ## Filled tables -/

/-- A column with a value in the place of every absent cell. -/
def Column.filled (value : Float) (column : Column Float) : Column Float :=
  { column with cells := column.cells.map fun cell => some (cell.getD value) }

/-- A table with a value in the place of every absent cell. -/
def Table.filled (value : Float) (table : Table Float) : Table Float where
  index := table.index
  columns := table.columns.map (Column.filled value)
  rectangular := by
    intro column member
    obtain ⟨given, inTable, rfl⟩ := List.mem_map.mp member
    rw [Column.filled, List.length_map]
    exact table.rectangular given inTable

theorem Table.columns_filled (value : Float) (table : Table Float) :
    (table.filled value).columns = table.columns.map (Column.filled value) := rfl

namespace Column

variable {window : Window} {unitScale elapsed present value : Float} {policy : ResetPolicy}
  {column : Column Float} {row : Nat}

/-- A value that is present stays. -/
theorem value?_filled_of_eq_some (value : Float) (held : column.value? row = some present) :
    (column.filled value).value? row = some present := by
  have cell : column.cells[row]? = some (some present) := Option.join_eq_some_iff.mp held
  simp [Column.value?, filled, cell]

/-- A change over a window stays. -/
theorem change?_filled_of_isSome (value : Float) (compared : (column.change? window row).isSome) :
    (column.filled value).change? window row = column.change? window row := by
  obtain ⟨before, after⟩ := isSome_change?_iff.mp compared
  obtain ⟨first, before⟩ := Option.isSome_iff_exists.mp before
  obtain ⟨last, after⟩ := Option.isSome_iff_exists.mp after
  rw [change?, change?, value?_filled_of_eq_some value before, value?_filled_of_eq_some value after,
    before, after]

theorem HasRate.filled (value : Float) (hasRate : column.HasRate window policy row) :
    (column.filled value).HasRate window policy row := by
  rw [HasRate, change?_filled_of_isSome value hasRate.1]
  exact hasRate

theorem HasRate.rate?_filled (value : Float) (hasRate : column.HasRate window policy row) :
    (column.filled value).rate? window unitScale elapsed row =
      column.rate? window unitScale elapsed row := by
  rw [rate?, rate?, change?_filled_of_isSome value hasRate.1]

end Column

/-! ## Rates of a filled table -/

namespace Table

variable {window : Window} {unitScale : Float} {policy : ResetPolicy} {table : Table Float}
  {row : Nat}

theorem changesColumns_filled (value : Float) :
    ChangesColumns (filled value) (Column.filled value) where
  name _ := rfl
  columns _ := rfl
  index _ _ same := same

theorem HasRates.filled (value : Float) (hasRates : table.HasRates window policy row) :
    (table.filled value).HasRates window policy row where
  inTable := hasRates.inTable
  reaches := hasRates.reaches
  advances := hasRates.advances
  complete := by
    intro column member
    obtain ⟨given, inTable, rfl⟩ := List.mem_map.mp member
    exact (hasRates.complete given inTable).filled value

theorem HasRates.rateRow_filled (value : Float) (hasRates : table.HasRates window policy row) :
    (table.filled value).rateRow window unitScale row = table.rateRow window unitScale row := by
  refine congrArg (Row.mk (table.timeAt row)) ?_
  rw [columns_filled, List.map_map]
  apply List.map_congr_left
  intro column member
  exact (hasRates.complete column member).rate?_filled value

/-- A row that has rates has them in the filled table too. -/
theorem ratedRows_sublist_filled (value : Float) :
    (table.ratedRows window policy).Sublist ((table.filled value).ratedRows window policy) := by
  apply List.monotone_filter_right
  intro row rated
  exact decide_eq_true ((of_decide_eq_true rated).filled value)

/-- Filling the absent cells of a table adds rows to its rates and changes none. -/
theorem rows_deriveRates_sublist_filled (value : Float) :
    (deriveRates window unitScale policy table).table.rows.Sublist
      (deriveRates window unitScale policy (table.filled value)).table.rows := by
  have same : (table.ratedRows window policy).map (table.rateRow window unitScale) =
      (table.ratedRows window policy).map ((table.filled value).rateRow window unitScale) := by
    apply List.map_congr_left
    intro row rated
    have hasRates := of_decide_eq_true (List.mem_filter.mp rated).2
    exact (hasRates.rateRow_filled value).symm
  rw [rows_deriveRates, rows_deriveRates, same]
  exact (ratedRows_sublist_filled value).map _

/-- Every row that is added was an incomplete one: the other rows without rates do not
depend on the cells. -/
theorem incompleteRows_filled_le (value : Float) :
    (deriveRates window unitScale policy (table.filled value)).stats.incompleteRows ≤
      (deriveRates window unitScale policy table).stats.incompleteRows := by
  have before := rowCount_eq_of_stats window unitScale policy table
  have after := rowCount_eq_of_stats window unitScale policy (table.filled value)
  have warmup : (deriveRates window unitScale policy (table.filled value)).stats.warmupRows =
      (deriveRates window unitScale policy table).stats.warmupRows := rfl
  have degenerate :
      (deriveRates window unitScale policy (table.filled value)).stats.degenerateWindows =
        (deriveRates window unitScale policy table).stats.degenerateWindows := by
    rw [degenerateWindows_eq_countP, degenerateWindows_eq_countP]
    rfl
  have more : (deriveRates window unitScale policy table).table.rowCount ≤
      (deriveRates window unitScale policy (table.filled value)).table.rowCount := by
    rw [← length_rows, ← length_rows]
    exact (rows_deriveRates_sublist_filled value).length_le
  have sameRows : (table.filled value).rowCount = table.rowCount := rfl
  simp only [warmup, degenerate, sameRows] at after
  simp only at before
  omega

/-- Resets can be added, where a late column starts below zero. -/
example :
    let table : Table Float :=
      { index := [.clamp 0, .clamp 1]
        columns := [⟨"a", [some 1.0, some 2.0]⟩, ⟨"b", [none, some (-1.0)]⟩]
        rectangular := by decide }
    let resets table := (deriveRates ⟨1, by decide⟩ 1.0 .skip table).stats.counterResets
    resets table = 0 ∧ resets (table.filled 0.0) = 1 := by
  decide +kernel

/-- Readings of a filled table have the scaled value in the cells that were absent. -/
theorem scaleReadings_filled (unitScale value : Float) (table : Table Float) :
    scaleReadings unitScale (table.filled value) =
      (scaleReadings unitScale table).filled (value * unitScale) := by
  apply ext_parts
  · rfl
  · simp only [scaleReadings, mapPresent, filled, List.map_map]
    apply List.map_congr_left
    intro column _
    refine congrArg (Column.mk column.name) ?_
    rw [Column.filled, List.map_map, List.map_map]
    apply List.map_congr_left
    rintro (_ | present) _ <;> rfl

end Table

/-! ## The two leading fills -/

theorem cellUpTo_zero (aggregation : Aggregation) (samples : List Sample) (label : String)
    (time : Time.Timestamp) :
    cellUpTo aggregation .zero samples label time =
      some ((cellUpTo aggregation .absent samples label time).getD 0.0) := by
  rw [cellUpTo, cellUpTo]
  cases latestUpTo (observations aggregation label samples) time <;> rfl

/-- Aligning with leading zeros fills the absent cells with zeros. -/
theorem alignSamples_zero (aggregation : Aggregation) (samples : List Sample) :
    alignSamples aggregation .zero samples =
      (alignSamples aggregation .absent samples).filled 0.0 := by
  apply Table.ext_parts
  · rfl
  · rw [columns_alignSamples, Table.columns_filled, columns_alignSamples, List.map_map]
    apply List.map_congr_left
    intro label _
    refine congrArg (Column.mk label) ?_
    rw [List.map_map]
    exact List.map_congr_left fun time _ => cellUpTo_zero aggregation samples label time

/-- What the output of a family without a leading fill is under the zero fill. -/
structure FilledTo (spec : FamilySpec) (output filled : FamilyOutput) : Prop where
  columns : filled.derived.table.names = output.derived.table.names
  alignedRows : filled.alignedRows = output.alignedRows
  filteredSamples : filled.filteredSamples = output.filteredSamples
  ignoredLabels : filled.ignoredLabels = output.ignoredLabels
  rates : spec.kind = .cumulative →
    output.derived.table.rows.Sublist filled.derived.table.rows
  incompleteRows :
    filled.derived.stats.incompleteRows ≤ output.derived.stats.incompleteRows
  readings : spec.kind = .instantaneous →
    filled.derived.table = output.derived.table.filled (0.0 * spec.unitScale)

namespace FamilySpec

/-- A family with a leading fill. -/
def withLeadingFill (spec : FamilySpec) (leadingFill : LeadingFill) : FamilySpec :=
  { spec with leadingFill }

variable {spec : FamilySpec} {samples : List Sample}

theorem aligned_zero (spec : FamilySpec) (samples : List Sample) :
    (spec.withLeadingFill .zero).aligned samples =
      ((spec.withLeadingFill .absent).aligned samples).filled 0.0 :=
  alignSamples_zero spec.aggregation (spec.recognized samples)

/-- Filling the arranged table of a family makes its output the filled one. -/
theorem filledTo_outputOf (spec : FamilySpec) (samples : List Sample) (table : Table Float) :
    FilledTo spec ((spec.withLeadingFill .absent).outputOf samples table)
      ((spec.withLeadingFill .zero).outputOf samples (table.filled 0.0)) where
  columns := by
    simp only [outputOf, names_derive]
    exact (Table.changesColumns_filled 0.0).names table
  alignedRows := rfl
  filteredSamples := rfl
  ignoredLabels := rfl
  rates cumulative := by
    simp only [outputOf, derive, withLeadingFill, MetricRates.derive, cumulative,
      DerivedTable.table]
    exact Table.rows_deriveRates_sublist_filled 0.0
  incompleteRows := by
    simp only [outputOf, derive, withLeadingFill, MetricRates.derive]
    cases spec.kind with
    | cumulative => exact Table.incompleteRows_filled_le 0.0
    | instantaneous => exact Nat.le_refl 0
  readings instantaneous := by
    simp only [outputOf, derive, withLeadingFill, MetricRates.derive, instantaneous,
      DerivedTable.table]
    exact Table.scaleReadings_filled spec.unitScale 0.0 table

/-- The zero fill only adds.  The aligned table has zeros in its absent cells, and either
both fills fail for the same cause, or both give outputs of the same columns and counts of
samples and aligned rows: all rows of rates stay as they are, and absent readings become
the scaled zero. -/
theorem process_zero_fill_only_adds (spec : FamilySpec) (samples : List Sample) :
    let absent := spec.withLeadingFill .absent
    let zero := spec.withLeadingFill .zero
    zero.aligned samples = (absent.aligned samples).filled 0.0 ∧
      ((∃ cause, absent.process samples = .error cause ∧ zero.process samples = .error cause) ∨
        ∃ output filled, absent.process samples = .ok output ∧
          zero.process samples = .ok filled ∧ FilledTo spec output filled) := by
  intro absent zero
  refine ⟨aligned_zero spec samples, ?_⟩
  by_cases unrecognized : spec.recognized samples = []
  · exact .inl ⟨_, process_of_unrecognized unrecognized, process_of_unrecognized unrecognized⟩
  · have arranged : zero.arrange (zero.aligned samples) =
        (absent.arrange (absent.aligned samples)).map (Table.filled 0.0) := by
      rw [aligned_zero]
      exact arrange_of_changesColumns (Table.changesColumns_filled 0.0) spec _
    have absentRun : absent.process samples =
        (absent.arrange (absent.aligned samples)).map (absent.outputOf samples) :=
      process_of_recognized unrecognized
    have zeroRun : zero.process samples =
        (zero.arrange (zero.aligned samples)).map (zero.outputOf samples) :=
      process_of_recognized unrecognized
    rw [absentRun, zeroRun, arranged]
    cases absent.arrange (absent.aligned samples) with
    | error cause => exact .inl ⟨cause, rfl, rfl⟩
    | ok table => exact .inr ⟨_, _, rfl, rfl, filledTo_outputOf spec samples table⟩

end FamilySpec

end MetricRates
