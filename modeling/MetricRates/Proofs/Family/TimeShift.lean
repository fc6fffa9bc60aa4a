import MetricRates.Proofs.Family.AlignedTable
import MetricRates.Proofs.Time.Shift

/-!
# Families of shifted samples

Instants are only ever compared and subtracted.  So samples that are all shifted
by the same time make the same columns, cells and counts, and only the instants
of the rows are shifted with them.
-/

namespace MetricRates

open Time

/-! ## Shifts of the data -/

/-- A sample, some time later. -/
def Sample.shift (offset : Int) (sample : Sample) : Sample :=
  { sample with time := sample.time.shift offset }

/-- An observation, some time later. -/
def Observation.shift (offset : Int) (observation : Observation) : Observation :=
  { observation with time := observation.time.shift offset }

/-- A row, some time later. -/
def Row.shift {α : Type} (offset : Int) (row : Row α) : Row α :=
  { row with time := row.time.shift offset }

/-- A table with every row some time later. -/
def Table.shift {α : Type} (offset : Int) (table : Table α) : Table α where
  index := table.index.map fun time => time.shift offset
  columns := table.columns
  rectangular := by
    intro column member
    rw [List.length_map]
    exact table.rectangular column member

/-- Rates with every row some time later; the counts stay. -/
def RateTable.shift (offset : Int) (result : RateTable) : RateTable :=
  { result with table := result.table.shift offset }

/-- A derived table with every row some time later; the counts stay. -/
def DerivedTable.shift (offset : Int) : DerivedTable → DerivedTable
  | .rates result => .rates (result.shift offset)
  | .readings table => .readings (table.shift offset)

/-- The output of a family with every row some time later; all else stays. -/
def FamilyOutput.shift (offset : Int) (output : FamilyOutput) : FamilyOutput :=
  { output with derived := output.derived.shift offset }

/-! ## Aligning -/

section Align

variable {offset : Int} {samples : List Sample} {time : Timestamp}
  (fits : ∀ sample ∈ samples, sample.time.Fits offset)

include fits

theorem fits_of_mem_sampledTimes (member : time ∈ sampledTimes samples) : time.Fits offset := by
  obtain ⟨sample, inSamples, rfl⟩ := mem_sampledTimes.mp member
  exact fits sample inSamples

theorem sampledTimes_shift :
    sampledTimes (samples.map (Sample.shift offset)) =
      (sampledTimes samples).map fun time => time.shift offset := by
  apply eq_of_ascending (fun _ _ => Timestamp.lt_asymm) (sampledTimes_ascending _)
  · rw [List.pairwise_map]
    refine (sampledTimes_ascending samples).imp_of_mem fun inFirst inSecond less => ?_
    exact (Timestamp.shift_lt_shift_iff (fits_of_mem_sampledTimes fits inFirst)
      (fits_of_mem_sampledTimes fits inSecond)).mpr less
  · intro time
    simp only [mem_sampledTimes, List.mem_map, exists_exists_and_eq_and]
    rfl

theorem valuesAt_shift (timeFits : time.Fits offset) (label : String) :
    valuesAt (samples.map (Sample.shift offset)) label (time.shift offset) =
      valuesAt samples label time := by
  rw [valuesAt, List.filter_map, List.map_map, valuesAt]
  have kept : samples.filter ((fun sample : Sample =>
      decide (sample.label = label ∧ sample.time = time.shift offset)) ∘ Sample.shift offset) =
      samples.filter fun sample => decide (sample.label = label ∧ sample.time = time) := by
    apply List.filter_congr
    intro sample member
    have same := Timestamp.shift_eq_shift_iff (fits sample member) timeFits
    exact decide_eq_decide.mpr (and_congr_right fun _ => same)
  rw [kept]
  rfl

/-- Shifted samples are observed as before, some time later. -/
theorem observations_shift (aggregation : Aggregation) (label : String) :
    observations aggregation label (samples.map (Sample.shift offset)) =
      (observations aggregation label samples).map (Observation.shift offset) := by
  have timeFits {observation : Observation}
      (member : observation ∈ observations aggregation label samples) :
      observation.time.Fits offset := by
    obtain ⟨sample, inSamples, -, atTime⟩ := (mem_observations_iff.mp member).1
    exact atTime ▸ fits sample inSamples
  apply eq_of_ascending (r := fun a b => a.time < b.time) (fun _ _ => Timestamp.lt_asymm)
    (observations_ascending _ _ _)
  · rw [List.pairwise_map]
    refine (observations_ascending aggregation label samples).imp_of_mem
      fun inFirst inSecond less => ?_
    exact (Timestamp.shift_lt_shift_iff (timeFits inFirst) (timeFits inSecond)).mpr less
  · intro observation
    rw [List.mem_map]
    constructor
    · intro member
      obtain ⟨⟨shifted, inShifted, named, atTime⟩, reduced⟩ := mem_observations_iff.mp member
      obtain ⟨sample, inSamples, rfl⟩ := List.mem_map.mp inShifted
      have atTime : sample.time.shift offset = observation.time := atTime
      rw [← atTime, valuesAt_shift fits (fits sample inSamples)] at reduced
      refine ⟨⟨sample.time, observation.value⟩, ?_, ?_⟩
      · exact mem_observations_iff.mpr ⟨⟨sample, inSamples, named, rfl⟩, reduced⟩
      · rw [Observation.shift, atTime]
    · rintro ⟨given, member, rfl⟩
      obtain ⟨⟨sample, inSamples, named, atTime⟩, reduced⟩ := mem_observations_iff.mp member
      refine mem_observations_iff.mpr ⟨⟨sample.shift offset, List.mem_map_of_mem inSamples,
        named, congrArg (Timestamp.shift · offset) atTime⟩, ?_⟩
      exact reduced.trans (congrArg _ (valuesAt_shift fits (timeFits member) label).symm)

/-- What a label has at an instant is what it has at the shifted instant when its
samples are shifted. -/
theorem cellUpTo_shift (timeFits : time.Fits offset) (aggregation : Aggregation)
    (leadingFill : LeadingFill) (label : String) :
    cellUpTo aggregation leadingFill (samples.map (Sample.shift offset)) label
        (time.shift offset) =
      cellUpTo aggregation leadingFill samples label time := by
  have latest : latestUpTo (observations aggregation label (samples.map (Sample.shift offset)))
      (time.shift offset) =
      (latestUpTo (observations aggregation label samples) time).map
        (Observation.shift offset) := by
    rw [observations_shift fits, latestUpTo, latestUpTo, List.filter_map, List.getLast?_map]
    congr 2
    apply List.filter_congr
    intro observation member
    obtain ⟨sample, inSamples, -, atTime⟩ := (mem_observations_iff.mp member).1
    exact decide_eq_decide.mpr
      (Timestamp.shift_le_shift_iff (atTime ▸ fits sample inSamples) timeFits)
  rw [cellUpTo, latest, Option.map_map]
  rfl

/-- Shifted samples are aligned to the shifted table. -/
theorem alignSamples_shift (aggregation : Aggregation) (leadingFill : LeadingFill) :
    alignSamples aggregation leadingFill (samples.map (Sample.shift offset)) =
      (alignSamples aggregation leadingFill samples).shift offset := by
  have labels : sampledLabels (samples.map (Sample.shift offset)) = sampledLabels samples := by
    rw [sampledLabels, List.map_map]
    rfl
  apply Table.ext_parts
  · exact sampledTimes_shift fits
  · rw [columns_alignSamples, Table.shift, columns_alignSamples, labels]
    apply List.map_congr_left
    intro label _
    rw [sampledTimes_shift fits, List.map_map]
    congr 1
    apply List.map_congr_left
    intro time member
    exact cellUpTo_shift fits (fits_of_mem_sampledTimes fits member) aggregation leadingFill label

end Align

/-! ## Deriving -/

/-- What becomes of a window, some time later. -/
def WindowOutcome.shift (offset : Int) : WindowOutcome → WindowOutcome
  | .degenerate ending elapsed => .degenerate (ending.shift offset) elapsed
  | .incomplete resets => .incomplete resets
  | .complete row => .complete (row.shift offset)

theorem row?_shift (offset : Int) (outcome : WindowOutcome) :
    (outcome.shift offset).row? = outcome.row?.map (Row.shift offset) := by
  cases outcome <;> rfl

theorem counts_shift (offset : Int) (outcome : WindowOutcome) :
    (outcome.shift offset).counts = outcome.counts := by
  cases outcome <;> rfl

theorem completeOutcome_shift (offset : Int) (time : Timestamp) (rates : List CellRate) :
    completeOutcome (time.shift offset) rates = (completeOutcome time rates).shift offset := by
  unfold completeOutcome
  split <;> rfl

section Derive

variable {offset : Int} {table : Table Float} (fits : ∀ time ∈ table.index, time.Fits offset)

theorem Table.timeAt_shift {row : Nat} (inTable : row < table.rowCount) :
    (table.shift offset).timeAt row = (table.timeAt row).shift offset := by
  have inShifted : row < (table.shift offset).rowCount := by simpa [rowCount, shift] using inTable
  rw [timeAt_eq_getElem inTable, timeAt_eq_getElem inShifted]
  exact List.getElem_map _

theorem Table.rowCount_shift (offset : Int) (table : Table Float) :
    (table.shift offset).rowCount = table.rowCount :=
  List.length_map _

include fits

theorem Table.elapsed_shift (window : Window) {row : Nat} (inTable : row < table.rowCount) :
    (table.shift offset).elapsed window row = table.elapsed window row := by
  have before : row - window.rows < table.rowCount := Nat.lt_of_le_of_lt (Nat.sub_le _ _) inTable
  rw [elapsed, elapsed, timeAt_shift inTable, timeAt_shift before]
  exact Timestamp.secondsSince_shift (fits _ (timeAt_mem inTable)) (fits _ (timeAt_mem before))

/-- A window of a shifted table comes out as before, some time later. -/
theorem Table.outcomeAt_shift (window : Window) (unitScale : Float) (policy : ResetPolicy)
    {row : Nat} (inTable : row < table.rowCount) :
    (table.shift offset).outcomeAt window unitScale policy row =
      (table.outcomeAt window unitScale policy row).shift offset := by
  rw [outcomeAt, outcomeAt, elapsed_shift fits window inTable, timeAt_shift inTable]
  split
  · rfl
  · exact completeOutcome_shift offset _ _

theorem windowOutcomes_shift (window : Window) (unitScale : Float) (policy : ResetPolicy) :
    windowOutcomes window unitScale policy (table.shift offset) =
      (windowOutcomes window unitScale policy table).map (WindowOutcome.shift offset) := by
  rw [Table.windowOutcomes_eq_map, Table.windowOutcomes_eq_map, Table.rowCount_shift,
    List.map_map]
  apply List.map_congr_left
  intro row member
  obtain ⟨_, inTable⟩ := List.mem_range'_1.mp member
  exact Table.outcomeAt_shift fits window unitScale policy (by omega)

/-- The rates of a shifted table are its rates, some time later. -/
theorem deriveRates_shift (window : Window) (unitScale : Float) (policy : ResetPolicy) :
    deriveRates window unitScale policy (table.shift offset) =
      (deriveRates window unitScale policy table).shift offset := by
  have outcomes := windowOutcomes_shift fits window unitScale policy
  have rows : (windowOutcomes window unitScale policy (table.shift offset)).filterMap
      WindowOutcome.row? =
      ((windowOutcomes window unitScale policy table).filterMap WindowOutcome.row?).map
        (Row.shift offset) := by
    rw [outcomes, List.filterMap_map, List.map_filterMap]
    exact List.filterMap_congr fun outcome _ => row?_shift offset outcome
  have counts : windowCounts window unitScale policy (table.shift offset) =
      windowCounts window unitScale policy table := by
    rw [windowCounts, outcomes, List.map_map]
    exact List.map_congr_left fun outcome _ => counts_shift offset outcome
  have tables : (deriveRates window unitScale policy (table.shift offset)).table =
      (deriveRates window unitScale policy table).table.shift offset := by
    simp only [deriveRates, rows]
    apply Table.ext_parts
    · simp only [Table.index_ofRows, Table.shift, List.map_map]
      rfl
    · simp only [Table.ofRows, Table.shift, List.map_map]
      rfl
  have stats : (deriveRates window unitScale policy (table.shift offset)).stats =
      (deriveRates window unitScale policy table).stats := by
    rw [stats_deriveRates, stats_deriveRates, counts, Table.rowCount_shift]
  exact congr (congrArg RateTable.mk tables) stats

theorem derive_shift (kind : MetricKind) (window : Window) (unitScale : Float)
    (policy : ResetPolicy) :
    derive kind window unitScale policy (table.shift offset) =
      (derive kind window unitScale policy table).shift offset := by
  cases kind with
  | cumulative => exact congrArg DerivedTable.rates (deriveRates_shift fits _ _ _)
  | instantaneous => rfl

end Derive

/-! ## The output of a family -/

theorem Table.changesColumns_shift (offset : Int) :
    Table.ChangesColumns (Table.shift (α := Float) offset) id where
  name _ := rfl
  columns table := (List.map_id table.columns).symm
  index _ _ same := congrArg (List.map (Timestamp.shift · offset)) same

namespace FamilySpec

variable {spec : FamilySpec} {offset : Int} {samples : List Sample}

theorem arrange_shift (spec : FamilySpec) (offset : Int) (table : Table Float) :
    spec.arrange (table.shift offset) = (spec.arrange table).map (Table.shift offset) :=
  arrange_of_changesColumns (Table.changesColumns_shift offset) spec table

theorem recognized_shift (spec : FamilySpec) (offset : Int) (samples : List Sample) :
    spec.recognized (samples.map (Sample.shift offset)) =
      (spec.recognized samples).map (Sample.shift offset) := by
  simp only [recognized, recognizedSamples, samplesOf, List.filter_map]
  rfl

theorem foreignLabels_shift (metric : String) (labels : LabelSet) (offset : Int)
    (samples : List Sample) :
    foreignLabels metric labels (samples.map (Sample.shift offset)) =
      foreignLabels metric labels samples := by
  simp only [foreignLabels, samplesOf, List.filter_map, List.map_map]
  rfl

/-- Samples that are all shifted by the same time make the same output with every
instant shifted, or fail for the same cause.  The rates of any table, whatever the
order of its rows, are shifted with the table in the same way. -/
theorem process_shift :
    (∀ (spec : FamilySpec) (offset : Int) (samples : List Sample),
      (∀ sample ∈ samples, sample.time.Fits offset) →
        spec.process (samples.map (Sample.shift offset)) =
          (spec.process samples).map (FamilyOutput.shift offset)) ∧
      ∀ (window : Window) (unitScale : Float) (policy : ResetPolicy) (offset : Int)
        (table : Table Float), (∀ time ∈ table.index, time.Fits offset) →
          deriveRates window unitScale policy (table.shift offset) =
            (deriveRates window unitScale policy table).shift offset := by
  refine ⟨fun spec offset samples fits => ?_,
    fun window unitScale policy _ _ fits => deriveRates_shift fits window unitScale policy⟩
  have recognizedFits : ∀ sample ∈ spec.recognized samples, sample.time.Fits offset :=
    fun sample member => fits sample (mem_recognized.mp member).1
  by_cases unrecognized : spec.recognized samples = []
  · have unrecognizedToo : spec.recognized (samples.map (Sample.shift offset)) = [] := by
      rw [recognized_shift, unrecognized, List.map_nil]
    rw [process_of_unrecognized unrecognized, process_of_unrecognized unrecognizedToo]
    rfl
  · have recognized : spec.recognized (samples.map (Sample.shift offset)) ≠ [] := by
      rw [recognized_shift]
      exact fun none => unrecognized (List.map_eq_nil_iff.mp none)
    have aligned : spec.aligned (samples.map (Sample.shift offset)) =
        (spec.aligned samples).shift offset := by
      rw [FamilySpec.aligned, recognized_shift]
      exact alignSamples_shift recognizedFits spec.aggregation spec.leadingFill
    rw [process_of_recognized unrecognized, process_of_recognized recognized, aligned,
      arrange_shift]
    cases arranged : spec.arrange (spec.aligned samples) with
    | error cause => rfl
    | ok table =>
        have tableFits : ∀ time ∈ table.index, time.Fits offset := by
          rw [(sameColumns_of_arrange arranged).index]
          exact fun time member => fits_of_mem_sampledTimes recognizedFits member
        have derived : spec.derive (table.shift offset) = (spec.derive table).shift offset :=
          derive_shift tableFits spec.kind spec.window spec.unitScale spec.resetPolicy
        simp only [Except.map, outputOf, FamilyOutput.shift, derived, recognized_shift,
          foreignLabels_shift, List.length_map, Table.rowCount_shift]

/-- Instants further apart than the largest instant is from zero can be shifted up
to the end of the range, and rows that go back in time down to its start. -/
theorem process_shift_to_range_ends :
    let spec : FamilySpec :=
      { FamilySpec.new "m" (.ofList ["a"]) .cumulative with window := ⟨1, by decide⟩ }
    let samples : List Sample := [⟨"m", "a", .clamp minNanos, 1.0⟩, ⟨"m", "a", .clamp 0, 4.0⟩]
    let table : Table Float :=
      { index := [.clamp maxNanos, .clamp 0], columns := [⟨"a", [some 1.0, none]⟩]
        rectangular := by decide }
    (∀ sample ∈ samples, sample.time.Fits maxNanos) ∧
      (∀ time ∈ table.index, time.Fits minNanos) ∧
      (∃ output, spec.process samples = .ok output ∧
        spec.process [⟨"m", "a", .clamp (-1), 1.0⟩, ⟨"m", "a", .clamp maxNanos, 4.0⟩] =
          .ok (output.shift maxNanos)) ∧
      deriveRates spec.window 1.0 .keep (table.shift minNanos) =
        (deriveRates spec.window 1.0 .keep table).shift minNanos := by
  intro spec samples table
  have samplesFit : ∀ sample ∈ samples, sample.time.Fits maxNanos := by decide
  have tableFits : ∀ time ∈ table.index, time.Fits minNanos := by decide
  have counts : (⟨"m", "a", .clamp 0, 4.0⟩ : Sample) ∈ spec.recognized samples :=
    mem_recognized.mpr ⟨by simp [samples], rfl, by simp [spec, new]⟩
  have processed : spec.process samples = .ok (spec.outputOf samples (spec.aligned samples)) :=
    process_eq_ok_iff.mpr ⟨List.ne_nil_of_mem counts, _, rfl, rfl⟩
  have shifted : samples.map (Sample.shift maxNanos) =
      [⟨"m", "a", .clamp (-1), 1.0⟩, ⟨"m", "a", .clamp maxNanos, 4.0⟩] := by decide
  refine ⟨samplesFit, tableFits, ⟨_, processed, ?_⟩, process_shift.2 _ _ _ _ _ tableFits⟩
  rw [← shifted, process_shift.1 spec maxNanos samples samplesFit, processed]
  rfl

end FamilySpec

end MetricRates
