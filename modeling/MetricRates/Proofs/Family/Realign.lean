import Mathlib.Data.List.Nodup
import MetricRates.Proofs.Family.AlignedTable
import MetricRates.Proofs.Family.Relevance
import MetricRates.Proofs.Number.Quotient

/-!
# Aligning the samples of an aligned table

An aligned table is flattened into one sample for each present cell.  No two of
them have the same label and instant, so combining has nothing to combine, and
what carrying forward would fill is there already: aligning these samples gives
the table back.
-/

namespace MetricRates

open Time

/-! ## Samples of different keys -/

/-- A value alone is reduced to itself. -/
theorem reduce_singleton (aggregation : Aggregation) (value : Float) :
    aggregation.reduce [value] = value := by
  cases aggregation with
  | mean =>
      have one : Float.ofNat (min [value].length (UInt32.size - 1)) = 1.0 := by
        rw [List.length_singleton]
        decide +kernel
      rw [Aggregation.reduce, one, Number.float_div_one]
      rfl
  | last => rfl

/-- No two samples have the same label and the same instant. -/
def DistinctKeys (samples : List Sample) : Prop :=
  samples.Pairwise fun a b => ¬ (a.label = b.label ∧ a.time = b.time)

theorem DistinctKeys.valuesAt {samples : List Sample} (distinct : DistinctKeys samples)
    {sample : Sample} (member : sample ∈ samples) :
    valuesAt samples sample.label sample.time = [sample.value] := by
  induction samples with
  | nil => cases member
  | cons head rest ih =>
      obtain ⟨others, distinct⟩ := List.pairwise_cons.mp distinct
      rw [← List.singleton_append, valuesAt_append]
      rcases List.mem_cons.mp member with rfl | member
      · have alone : MetricRates.valuesAt rest sample.label sample.time = [] := by
          rw [← not_ne_iff, valuesAt_ne_nil_iff]
          rintro ⟨other, inRest, named, atTime⟩
          exact others other inRest ⟨named.symm, atTime.symm⟩
        rw [alone]
        simp [MetricRates.valuesAt]
      · rw [ih distinct member]
        have different := others sample member
        simp [MetricRates.valuesAt, different]

/-- Samples of different keys are observed as they are. -/
theorem DistinctKeys.mem_observations_iff {samples : List Sample}
    (distinct : DistinctKeys samples) {aggregation : Aggregation} {label : String}
    {observation : Observation} :
    observation ∈ observations aggregation label samples ↔
      ∃ sample ∈ samples, sample.label = label ∧ sample.time = observation.time ∧
        sample.value = observation.value := by
  rw [MetricRates.mem_observations_iff]
  constructor
  · rintro ⟨⟨sample, member, rfl, atTime⟩, reduced⟩
    rw [← atTime, distinct.valuesAt member, reduce_singleton] at reduced
    exact ⟨sample, member, rfl, atTime, reduced.symm⟩
  · rintro ⟨sample, member, rfl, atTime, sameValue⟩
    refine ⟨⟨sample, member, rfl, atTime⟩, ?_⟩
    rw [← atTime, distinct.valuesAt member, reduce_singleton, sameValue]

theorem latestUpTo_time_of_mem {observed : List Observation} {observation : Observation}
    (ascending : observed.Pairwise fun a b => a.time < b.time) (member : observation ∈ observed) :
    latestUpTo observed observation.time = some observation := by
  obtain ⟨before, after, rfl⟩ := List.append_of_mem member
  have later : ∀ other ∈ after, observation.time < other.time :=
    (List.pairwise_cons.mp (List.pairwise_append.mp ascending).2.1).1
  have noneLater := latestUpTo_of_later later
  rw [latestUpTo, List.getLast?_eq_none_iff] at noneLater
  rw [latestUpTo, List.filter_append,
    List.filter_cons_of_pos (by simpa using Timestamp.le_refl observation.time), noneLater]
  simp

/-! ## The samples of a table -/

namespace Table

variable {table : Table Float} {leadingFill : LeadingFill} {metric : String}

theorem cells_eq_map_value? {column : Column Float} (member : column ∈ table.columns) :
    column.cells = (List.range table.rowCount).map column.value? := by
  have length := table.rectangular column member
  apply List.ext_getElem (by simp [rowCount, length])
  intro row inColumn inRange
  simp [Column.value?, inColumn]

/-- The sample of a column in a row. -/
def sampleAt? (metric : String) (table : Table Float) (column : Column Float) (row : Nat) :
    Option Sample :=
  (column.value? row).map fun value =>
    { metric, label := column.name, time := table.timeAt row, value }

theorem key_sampleAt? {column : Column Float} {row : Nat} {sample : Sample}
    (found : table.sampleAt? metric column row = some sample) :
    sample.label = column.name ∧ sample.time = table.timeAt row := by
  obtain ⟨value, _, rfl⟩ := Option.map_eq_some_iff.mp found
  exact ⟨rfl, rfl⟩

theorem zip_cells {column : Column Float} (member : column ∈ table.columns) :
    table.index.zip column.cells =
      (List.range table.rowCount).map fun row => (table.timeAt row, column.value? row) := by
  rw [← map_timeAt_range table, cells_eq_map_value? member, List.zip_map']

theorem toSamples_eq (metric : String) (table : Table Float) :
    table.toSamples metric = table.columns.flatMap fun column =>
      (List.range table.rowCount).filterMap (table.sampleAt? metric column) := by
  apply List.flatMap_congr
  intro column member
  rw [zip_cells member, List.filterMap_map]
  rfl

/-- The samples of a table are its present cells. -/
theorem mem_toSamples {sample : Sample} :
    sample ∈ table.toSamples metric ↔
      sample.metric = metric ∧ ∃ column ∈ table.columns, column.name = sample.label ∧
        ∃ row < table.rowCount, table.timeAt row = sample.time ∧
          column.value? row = some sample.value := by
  simp only [toSamples_eq, List.mem_flatMap, List.mem_filterMap, List.mem_range, sampleAt?,
    Option.map_eq_some_iff]
  constructor
  · rintro ⟨column, inTable, row, inRows, value, present, rfl⟩
    exact ⟨rfl, column, inTable, rfl, row, inRows, rfl, present⟩
  · rintro ⟨rfl, column, inTable, named, row, inRows, atTime, present⟩
    exact ⟨column, inTable, row, inRows, sample.value, present, by rw [named, atTime]⟩

/-- The samples of a table are recognized where the names of its columns are
listed. -/
theorem recognizedSamples_toSamples {allowed : LabelSet}
    (listed : ∀ name ∈ table.names, name ∈ allowed) :
    recognizedSamples metric allowed (table.toSamples metric) = table.toSamples metric := by
  have known {sample : Sample} (member : sample ∈ table.toSamples metric) :
      sample.metric = metric ∧ sample.label ∈ allowed := by
    obtain ⟨ofMetric, column, inTable, named, _⟩ := mem_toSamples.mp member
    exact ⟨ofMetric, named ▸ listed column.name (List.mem_map_of_mem inTable)⟩
  have ofMetric : samplesOf metric (table.toSamples metric) = table.toSamples metric :=
    List.filter_eq_self.mpr fun sample member => beq_iff_eq.mpr (known member).1
  rw [recognizedSamples, ofMetric]
  exact List.filter_eq_self.mpr fun sample member => decide_eq_true (known member).2

/-- The samples of an aligned table have different labels or instants. -/
theorem WellAligned.distinctKeys_toSamples (wellAligned : table.WellAligned leadingFill)
    (metric : String) : DistinctKeys (table.toSamples metric) := by
  rw [toSamples_eq, DistinctKeys, List.pairwise_flatMap]
  constructor
  · intro column _
    rw [List.pairwise_filterMap]
    refine List.pairwise_lt_range.imp_of_mem ?_
    intro _ _ _ inRange less first found second foundToo same
    have before := timeAt_lt wellAligned.ascending less (List.mem_range.mp inRange)
    rw [← (key_sampleAt? found).2, ← (key_sampleAt? foundToo).2, same.2] at before
    exact Timestamp.lt_irrefl _ before
  · have names : table.columns.Pairwise fun a b => a.name ≠ b.name :=
      List.pairwise_map.mp wellAligned.names_nodup
    refine names.imp fun differ first inFirst second inSecond same => ?_
    obtain ⟨_, _, found⟩ := List.mem_filterMap.mp inFirst
    obtain ⟨_, _, foundToo⟩ := List.mem_filterMap.mp inSecond
    rw [← (key_sampleAt? found).1, ← (key_sampleAt? foundToo).1] at differ
    exact differ same.1

/-! ## Aligning them again -/

section Again

variable (wellAligned : table.WellAligned leadingFill) (metric : String)

include wellAligned

theorem WellAligned.column_eq_of_name {first second : Column Float}
    (inTable : first ∈ table.columns) (inTableToo : second ∈ table.columns)
    (same : first.name = second.name) : first = second :=
  List.inj_on_of_nodup_map wellAligned.names_nodup inTable inTableToo same

theorem WellAligned.sampledTimes_toSamples :
    sampledTimes (table.toSamples metric) = table.index := by
  apply eq_of_ascending (fun _ _ => Timestamp.lt_asymm) (sampledTimes_ascending _)
    wellAligned.ascending
  intro time
  rw [mem_sampledTimes]
  constructor
  · rintro ⟨sample, member, rfl⟩
    obtain ⟨_, column, _, _, row, inTable, atTime, _⟩ := mem_toSamples.mp member
    exact atTime ▸ timeAt_mem inTable
  · intro member
    obtain ⟨row, inTable, rfl⟩ := exists_timeAt_eq member
    obtain ⟨column, inColumns, present⟩ := wellAligned.row_present row inTable
    obtain ⟨value, present⟩ := Option.isSome_iff_exists.mp present
    exact ⟨⟨metric, column.name, table.timeAt row, value⟩,
      mem_toSamples.mpr ⟨rfl, column, inColumns, rfl, row, inTable, rfl, present⟩, rfl⟩

theorem WellAligned.sampledLabels_toSamples (sorted : table.names.Pairwise (· < ·)) :
    (sampledLabels (table.toSamples metric)).members = table.names := by
  apply eq_of_ascending (fun _ _ => String.lt_asymm) (sampledLabels _).ascending sorted
  intro label
  rw [mem_sampledLabels, names, List.mem_map]
  constructor
  · rintro ⟨sample, member, rfl⟩
    obtain ⟨_, column, inColumns, named, _⟩ := mem_toSamples.mp member
    exact ⟨column, inColumns, named⟩
  · rintro ⟨column, inColumns, rfl⟩
    obtain ⟨row, inTable, present⟩ := wellAligned.column_present column inColumns
    obtain ⟨value, present⟩ := Option.isSome_iff_exists.mp present
    exact ⟨⟨metric, column.name, table.timeAt row, value⟩,
      mem_toSamples.mpr ⟨rfl, column, inColumns, rfl, row, inTable, rfl, present⟩, rfl⟩

/-- A present cell is the observation of its own instant, and before a column has
a value none of its samples is found. -/
theorem WellAligned.cellUpTo_toSamples {fill : LeadingFill}
    (noMore : fill = .zero → leadingFill = .zero) (aggregation : Aggregation)
    {column : Column Float} (member : column ∈ table.columns) {row : Nat}
    (inTable : row < table.rowCount) :
    cellUpTo aggregation fill (table.toSamples metric) column.name (table.timeAt row) =
      column.value? row := by
  cases present : column.value? row with
  | some value =>
      have observed : ⟨table.timeAt row, value⟩ ∈
          observations aggregation column.name (table.toSamples metric) :=
        (wellAligned.distinctKeys_toSamples metric).mem_observations_iff.mpr
          ⟨⟨metric, column.name, table.timeAt row, value⟩,
            mem_toSamples.mpr ⟨rfl, column, member, rfl, row, inTable, rfl, present⟩,
            rfl, rfl, rfl⟩
      have latest := latestUpTo_time_of_mem (observations_ascending _ _ _) observed
      rw [cellUpTo, latest]
      rfl
  | none =>
      rw [← Option.not_isSome_iff_eq_none, isSome_cellUpTo_iff]
      have absent : ¬ (column.value? row).isSome := by simp [present]
      rintro (zero | ⟨sample, inSamples, named, upTo⟩)
      · exact absent (wellAligned.filled (noMore zero) column member row inTable)
      · -- The sample is a value of the same column in an earlier row, which is carried on.
        obtain ⟨_, other, inTableToo, ofOther, earlier, inRows, atTime, found⟩ :=
          mem_toSamples.mp inSamples
        obtain rfl := wellAligned.column_eq_of_name inTableToo member (ofOther.trans named)
        have notAfter : earlier ≤ row := by
          refine Nat.le_of_not_lt fun after => ?_
          have before := timeAt_lt wellAligned.ascending after inRows
          rw [atTime] at before
          exact Timestamp.not_le.mpr before upTo
        exact absent (wellAligned.carried other member earlier row notAfter inTable
          (by simp [found]))

/-- Aligning the samples of an aligned table gives the table. -/
theorem WellAligned.alignSamples_toSamples (sorted : table.names.Pairwise (· < ·))
    {fill : LeadingFill} (noMore : fill = .zero → leadingFill = .zero)
    (aggregation : Aggregation) :
    alignSamples aggregation fill (table.toSamples metric) = table := by
  apply ext_parts
  · exact wellAligned.sampledTimes_toSamples metric
  · rw [columns_alignSamples, wellAligned.sampledLabels_toSamples metric sorted,
      wellAligned.sampledTimes_toSamples metric, names, List.map_map]
    conv => rhs; rw [← List.map_id table.columns]
    apply List.map_congr_left
    intro column member
    have cells : table.index.map
        (cellUpTo aggregation fill (table.toSamples metric) column.name) = column.cells := by
      rw [← map_timeAt_range table, List.map_map, cells_eq_map_value? member]
      apply List.map_congr_left
      intro row inRange
      exact wellAligned.cellUpTo_toSamples metric noMore aggregation member
        (List.mem_range.mp inRange)
    rw [Function.comp_apply, cells]
    rfl

theorem WellAligned.toSamples_ne_nil : table.toSamples metric ≠ [] := by
  obtain ⟨time, member⟩ := List.exists_mem_of_ne_nil _ wellAligned.index_ne_nil
  rw [← wellAligned.sampledTimes_toSamples metric] at member
  obtain ⟨sample, inSamples, _⟩ := mem_sampledTimes.mp member
  exact List.ne_nil_of_mem inSamples

end Again

end Table

/-- The samples of an aligned table, selected by labels that list its columns,
leave no label out and are aligned to the table again, whatever they are
aggregated by.  Where cells before the first sample are zero they are samples too,
so the leading fill is not needed the second time. -/
theorem align_toSamples (selection : Selection) (metric : String) (first second : Aggregation)
    (leadingFill : LeadingFill) {allowed : LabelSet}
    (listed : ∀ name ∈ (selection.align first leadingFill).names, name ∈ allowed) :
    let table := selection.align first leadingFill
    ∃ again, select metric allowed (table.toSamples metric) = .ok again ∧
      again.ignoredLabels.members = [] ∧ again.align second leadingFill = table ∧
        (leadingFill = .zero → again.align second .absent = table) := by
  intro table
  have wellAligned : table.WellAligned leadingFill :=
    wellAligned_alignSamples first leadingFill selection.samples_ne_nil
  have sorted : table.names.Pairwise (· < ·) := by
    have names : table.names = (sampledLabels selection.samples).members :=
      names_alignSamples first leadingFill selection.samples
    rw [names]
    exact (sampledLabels selection.samples).ascending
  have recognized : recognizedSamples metric allowed (table.toSamples metric) =
      table.toSamples metric := Table.recognizedSamples_toSamples listed
  have nonempty : recognizedSamples metric allowed (table.toSamples metric) ≠ [] := by
    rw [recognized]
    exact wellAligned.toSamples_ne_nil metric
  have again (fill : LeadingFill) (noMore : fill = .zero → leadingFill = .zero) :
      alignSamples second fill (recognizedSamples metric allowed (table.toSamples metric)) =
        table := by
    rw [recognized]
    exact wellAligned.alignSamples_toSamples metric sorted noMore second
  refine ⟨_, dif_pos nonempty, ?_, again leadingFill id, fun zero => again .absent fun _ => zero⟩
  rw [List.eq_nil_iff_forall_not_mem]
  intro label ignored
  obtain ⟨⟨sample, inSamples, -, rfl⟩, unlisted⟩ := FamilySpec.mem_foreignLabels.mp ignored
  obtain ⟨-, column, inTable, named, -⟩ := Table.mem_toSamples.mp inSamples
  exact unlisted (named ▸ listed column.name (List.mem_map_of_mem inTable))

/-- The means of `lateLabel` under the zero fill are aligned to themselves with
either leading fill. -/
theorem align_toSamples_lateLabel :
    let allowed : LabelSet := ⟨["a", "b", "c"], by decide⟩
    let table := lateLabel.align .mean .zero
    (∀ name ∈ table.names, name ∈ allowed) ∧
      ∃ again, select "m" allowed (table.toSamples "m") = .ok again ∧
        again.ignoredLabels.members = [] ∧ again.align .last .zero = table ∧
          again.align .last .absent = table := by
  intro allowed table
  have listed : ∀ name ∈ table.names, name ∈ allowed := by
    intro name member
    rw [show table.names = (sampledLabels lateLabel.samples).members from
      names_alignSamples .mean .zero lateLabel.samples, mem_sampledLabels] at member
    obtain ⟨sample, inSamples, rfl⟩ := member
    revert sample
    decide
  obtain ⟨again, selected, ignored, same, sameAbsent⟩ :=
    align_toSamples lateLabel "m" .mean .last .zero listed
  exact ⟨listed, again, selected, ignored, same, sameAbsent rfl⟩

end MetricRates
