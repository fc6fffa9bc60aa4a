import MetricRates.Proofs.Family.AlignedTable
import MetricRates.Proofs.Family.Relevance
import MetricRates.Proofs.Table.Prefix

/-!
# Families of growing samples

Carrying forward and comparing rows look backwards only.  So samples that come
after all others, of labels that are known already, add rows to the aligned
table and to what is derived from it, and change none of the rows before.
-/

namespace MetricRates

open Time

/-! ## Aligning -/

section Align

variable {samples later : List Sample} {time : Timestamp}

/-- The instants of samples that follow others come after those of the
others. -/
theorem sampledTimes_append
    (follow : ∀ old ∈ samples, ∀ new ∈ later, old.time < new.time) :
    sampledTimes (samples ++ later) = sampledTimes samples ++ sampledTimes later := by
  apply eq_of_ascending (fun _ _ => Timestamp.lt_asymm) (sampledTimes_ascending _)
  · rw [List.pairwise_append]
    refine ⟨sampledTimes_ascending _, sampledTimes_ascending _, ?_⟩
    intro early isEarly late isLate
    obtain ⟨old, inSamples, rfl⟩ := mem_sampledTimes.mp isEarly
    obtain ⟨new, inLater, rfl⟩ := mem_sampledTimes.mp isLate
    exact follow old inSamples new inLater
  · intro time
    simp only [List.mem_append, mem_sampledTimes, or_and_right, exists_or]

theorem sampledLabels_append (known : ∀ new ∈ later, ∃ old ∈ samples, old.label = new.label) :
    (sampledLabels (samples ++ later)).members = (sampledLabels samples).members := by
  apply eq_of_ascending (fun _ _ => String.lt_asymm) (sampledLabels _).ascending
    (sampledLabels _).ascending
  intro label
  simp only [mem_sampledLabels, List.mem_append, or_and_right, exists_or, or_iff_left_iff_imp]
  rintro ⟨new, inLater, rfl⟩
  exact known new inLater

/-- Samples after an instant do not change what was observed up to it. -/
theorem latestUpTo_append (aggregation : Aggregation) (label : String)
    (after : ∀ new ∈ later, time < new.time) :
    latestUpTo (observations aggregation label (samples ++ later)) time =
      latestUpTo (observations aggregation label samples) time := by
  have unsampled {instant : Timestamp} (upTo : instant ≤ time) :
      valuesAt later label instant = [] := by
    rw [← not_ne_iff, valuesAt_ne_nil_iff]
    rintro ⟨new, inLater, _, rfl⟩
    exact Timestamp.not_le.mpr (after new inLater) upTo
  rw [latestUpTo, latestUpTo]
  congr 1
  apply eq_of_ascending (r := fun a b => a.time < b.time) (fun _ _ => Timestamp.lt_asymm)
    ((observations_ascending _ _ _).filter _) ((observations_ascending _ _ _).filter _)
  intro observation
  simp only [List.mem_filter, decide_eq_true_eq, and_congr_left_iff]
  intro upTo
  simp only [mem_observations_iff, ← valuesAt_ne_nil_iff, valuesAt_append, unsampled upTo,
    List.append_nil]

/-- Samples that follow others add rows to the aligned table of the others. -/
theorem alignSamples_append (aggregation : Aggregation) (leadingFill : LeadingFill)
    (follow : ∀ old ∈ samples, ∀ new ∈ later, old.time < new.time)
    (known : ∀ new ∈ later, ∃ old ∈ samples, old.label = new.label) :
    (alignSamples aggregation leadingFill (samples ++ later)).takeRows
        (sampledTimes samples).length =
      alignSamples aggregation leadingFill samples := by
  apply Table.ext_parts
  · change (sampledTimes (samples ++ later)).take _ = sampledTimes samples
    rw [sampledTimes_append follow, List.take_left]
  · rw [Table.columns_takeRows, columns_alignSamples, columns_alignSamples,
      sampledLabels_append known, List.map_map]
    apply List.map_congr_left
    intro label _
    have cells : (sampledTimes samples).map
        (cellUpTo aggregation leadingFill (samples ++ later) label) =
        (sampledTimes samples).map (cellUpTo aggregation leadingFill samples label) := by
      apply List.map_congr_left
      intro time member
      obtain ⟨old, inSamples, rfl⟩ := mem_sampledTimes.mp member
      rw [cellUpTo, latestUpTo_append aggregation label (follow old inSamples), cellUpTo]
    simp only [Function.comp_apply, Column.take, sampledTimes_append follow, List.map_append, cells]
    rw [List.take_left' (List.length_map _)]

end Align

theorem length_sampledTimes (samples : List Sample) :
    (sampledTimes samples).length = (samples.map Sample.time).eraseDups.length := by
  apply List.Perm.length_eq
  apply (List.perm_ext_iff_of_nodup (nodup_of_ascending (fun _ _ => Timestamp.lt_asymm)
    (sampledTimes_ascending samples)) (nodup_eraseDups _)).mpr
  intro time
  simp [mem_sampledTimes]

/-! ## Deriving -/

section Derive

variable (window : Window) (unitScale : Float) (policy : ResetPolicy) (count : Nat)
  (table : Table Float)

theorem spans_take (rows : List (Row Float)) :
    spans window (rows.take count) = (spans window rows).take (count - window.rows) := by
  apply List.ext_getElem?
  intro position
  simp only [spans, List.getElem?_zipWith, List.getElem?_take, List.getElem?_drop]
  by_cases kept : position < count - window.rows
  · rw [if_pos kept, if_pos (by omega), if_pos (by omega)]
  · rw [if_neg kept, if_neg (by omega : ¬ window.rows + position < count)]
    cases (if position < count then rows[position]? else none) <;> rfl

/-- The windows of the first rows of a table are the first windows of the
table. -/
theorem windowOutcomes_takeRows :
    windowOutcomes window unitScale policy (table.takeRows count) =
      (windowOutcomes window unitScale policy table).take (count - window.rows) := by
  rw [windowOutcomes, windowOutcomes, Table.rows_takeRows, spans_take, List.map_take]

theorem deriveRates_takeRows :
    let first := (deriveRates window unitScale policy (table.takeRows count)).table
    (deriveRates window unitScale policy table).table.takeRows first.rowCount = first := by
  have rows : (windowOutcomes window unitScale policy (table.takeRows count)).filterMap
      WindowOutcome.row? <+:
      (windowOutcomes window unitScale policy table).filterMap WindowOutcome.row? := by
    rw [windowOutcomes_takeRows]
    exact (List.take_prefix _ _).filterMap _
  simp only [deriveRates, Table.names_takeRows, Table.rowCount, Table.index_ofRows,
    List.length_map]
  rw [← Table.ofRows_take, ← List.prefix_iff_eq_take.mp rows]

end Derive

/-- No count of one derivation is above that of another. -/
structure RateStats.AtMost (first second : RateStats) : Prop where
  warmupRows : first.warmupRows ≤ second.warmupRows
  degenerateWindows : first.degenerateWindows ≤ second.degenerateWindows
  counterResets : first.counterResets ≤ second.counterResets
  incompleteRows : first.incompleteRows ≤ second.incompleteRows

theorem stats_takeRows (window : Window) (unitScale : Float) (policy : ResetPolicy)
    (count : Nat) (table : Table Float) :
    (deriveRates window unitScale policy (table.takeRows count)).stats.AtMost
      (deriveRates window unitScale policy table).stats := by
  have outcomes := windowOutcomes_takeRows window unitScale policy count table
  have early : ((windowOutcomes window unitScale policy table).take
      (count - window.rows)).Sublist (windowOutcomes window unitScale policy table) :=
    List.take_sublist _ _
  refine ⟨?_, ?_, ?_, ?_⟩
  · simp only [deriveRates, Table.rowCount_takeRows]
    omega
  · simp only [deriveRates, outcomes]
    exact early.countP_le
  · simp only [deriveRates, outcomes, ← List.sum_eq_foldl, List.map_take]
    have parts := congrArg List.sum (List.take_append_drop (count - window.rows)
      ((windowOutcomes window unitScale policy table).map WindowOutcome.resets))
    rw [List.sum_append] at parts
    omega
  · simp only [deriveRates, outcomes]
    exact early.countP_le

/-- The rows of one derived table are the first rows of another, and none of its
counts is above that of the other. -/
structure DerivedTable.StartOf (first second : DerivedTable) : Prop where
  rows : second.table.takeRows first.table.rowCount = first.table
  counts : first.stats.AtMost second.stats

/-- What is derived from the first rows of a table is the start of what is derived
from the table. -/
theorem derive_takeRows (kind : MetricKind) (window : Window) (unitScale : Float)
    (policy : ResetPolicy) (count : Nat) (table : Table Float) :
    (derive kind window unitScale policy (table.takeRows count)).StartOf
      (derive kind window unitScale policy table) := by
  cases kind with
  | cumulative =>
      exact ⟨deriveRates_takeRows window unitScale policy count table,
        stats_takeRows window unitScale policy count table⟩
  | instantaneous =>
      refine ⟨?_, ⟨Nat.le_refl _, Nat.le_refl _, Nat.le_refl _, Nat.le_refl _⟩⟩
      have scaled : scaleReadings unitScale (table.takeRows count) =
          (scaleReadings unitScale table).takeRows count :=
        Table.mapPresent_takeRows _ count table
      change (scaleReadings unitScale table).takeRows
        (scaleReadings unitScale (table.takeRows count)).rowCount = _
      rw [scaled, Table.rowCount_takeRows, Table.takeRows_min]
      exact scaled.symm

/-! ## The output of a family -/

namespace FamilySpec

theorem arrange_takeRows (spec : FamilySpec) (count : Nat) (table : Table Float) :
    spec.arrange (table.takeRows count) = (spec.arrange table).map (Table.takeRows count) :=
  arrange_of_changesColumns (Table.changesColumns_takeRows count) spec table

theorem recognized_append (spec : FamilySpec) (samples later : List Sample) :
    spec.recognized (samples ++ later) = spec.recognized samples ++ spec.recognized later := by
  simp [recognized, recognizedSamples, samplesOf]

/-- Samples that count and come after all others that count, of labels that are
known already, add rows and change no row before: a family with an output has one
of the same columns that starts with it and has as many more aligned rows as
there are further instants, and no count goes down.  An order that is not met is
still not met. -/
theorem process_append {spec : FamilySpec} {samples later : List Sample}
    (nonempty : spec.recognized samples ≠ [])
    (follow : ∀ old ∈ spec.recognized samples, ∀ new ∈ spec.recognized later,
      old.time < new.time)
    (known : ∀ new ∈ spec.recognized later, ∃ old ∈ spec.recognized samples,
      old.label = new.label) :
    (∀ output, spec.process samples = .ok output →
      ∃ grown, spec.process (samples ++ later) = .ok grown ∧
        grown.derived.table.names = output.derived.table.names ∧
        output.derived.StartOf grown.derived ∧
        grown.alignedRows = output.alignedRows +
          ((spec.recognized later).map Sample.time).eraseDups.length) ∧
      ∀ cause, spec.process samples = .error cause →
        spec.process (samples ++ later) = .error cause := by
  have start : (spec.aligned (samples ++ later)).takeRows
      (sampledTimes (spec.recognized samples)).length = spec.aligned samples := by
    rw [aligned, aligned, recognized_append]
    exact alignSamples_append spec.aggregation spec.leadingFill follow known
  have grownNonempty : spec.recognized (samples ++ later) ≠ [] := by
    rw [recognized_append]
    exact List.append_ne_nil_of_left_ne_nil nonempty _
  rw [process_of_recognized nonempty, process_of_recognized grownNonempty, ← start,
    arrange_takeRows]
  cases arranged : spec.arrange (spec.aligned (samples ++ later)) with
  | error cause =>
      constructor
      · intro output processed
        cases processed
      · intro other failed
        cases failed
        rfl
  | ok table =>
      constructor
      · intro output processed
        cases processed
        have same := sameColumns_of_arrange arranged
        have startOf := derive_takeRows spec.kind spec.window spec.unitScale spec.resetPolicy
          (sampledTimes (spec.recognized samples)).length table
        have names := congrArg Table.names startOf.rows
        rw [Table.names_takeRows] at names
        refine ⟨_, rfl, names, startOf, ?_⟩
        have rows : table.rowCount = (sampledTimes (spec.recognized samples)).length +
            (sampledTimes (spec.recognized later)).length := by
          rw [same.rowCount, ← List.length_append, ← sampledTimes_append follow,
            ← recognized_append]
          rfl
        simp only [outputOf, Table.rowCount_takeRows, rows, ← length_sampledTimes]
        omega
      · intro cause failed
        cases failed

/-- A further instant of two labels adds a row to the two rows before. -/
theorem process_append_third_instant :
    let spec := FamilySpec.new "m" ⟨["a", "b"], by decide⟩ .instantaneous
    let samples : List Sample := [⟨"m", "a", .clamp 1, 1.0⟩, ⟨"m", "b", .clamp 2, 5.0⟩]
    let later : List Sample :=
      [⟨"m", "b", .clamp 3, 7.0⟩, ⟨"n", "a", .clamp 0, 2.0⟩, ⟨"m", "a", .clamp 3, 4.0⟩]
    spec.recognized samples ≠ [] ∧
      (∀ old ∈ spec.recognized samples, ∀ new ∈ spec.recognized later, old.time < new.time) ∧
      (∀ new ∈ spec.recognized later, ∃ old ∈ spec.recognized samples,
        old.label = new.label) ∧
      ∃ output grown, spec.process samples = .ok output ∧
        spec.process (samples ++ later) = .ok grown ∧ output.derived.StartOf grown.derived ∧
        grown.alignedRows = output.alignedRows + 1 := by
  intro spec samples later
  have nonempty : spec.recognized samples ≠ [] := by decide
  have follow : ∀ old ∈ spec.recognized samples, ∀ new ∈ spec.recognized later,
      old.time < new.time := by decide
  have known : ∀ new ∈ spec.recognized later, ∃ old ∈ spec.recognized samples,
      old.label = new.label := by decide
  have processed : spec.process samples =
      .ok (spec.outputOf samples (spec.aligned samples)) :=
    process_eq_ok_iff.mpr ⟨nonempty, _, rfl, rfl⟩
  obtain ⟨grown, grows, -, startOf, rows⟩ :=
    (process_append nonempty follow known).1 _ processed
  have instants : ((spec.recognized later).map Sample.time).eraseDups.length = 1 := by
    decide
  rw [instants] at rows
  exact ⟨nonempty, follow, known, _, grown, processed, grows, startOf, rows⟩

end FamilySpec

end MetricRates
