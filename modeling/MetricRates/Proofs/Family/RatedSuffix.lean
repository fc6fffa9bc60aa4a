import MetricRates.Proofs.Family.Accounting
import MetricRates.Proofs.Family.AlignedTable
import MetricRates.Proofs.Number.Quotient

/-!
# Which rows of an aligned table keep their rates

The instants of an aligned table ascend, so no window is degenerate, and columns
that have a value keep having one.  So the rows before all columns have a value
and the rows without a window are lost, and every later row has rates unless a
reset is skipped in it.
-/

namespace MetricRates

open Time

namespace Table

variable {window : Window} {policy : ResetPolicy} {leadingFill : LeadingFill}
  {table : Table Float} {row : Nat}

/-! ## Leading rows -/

/-- The number of rows before the first one in which no cell is absent. -/
def leadingPartialRows (table : Table Float) : Nat :=
  (table.rows.takeWhile fun row => row.cells.any Option.isNone).length

theorem partial_rowAt_iff :
    (table.rowAt row).cells.any Option.isNone ↔
      ∃ column ∈ table.columns, ¬ (column.value? row).isSome := by
  simp [rowAt]

theorem lt_leadingPartialRows_iff :
    row < table.leadingPartialRows ↔
      row < table.rowCount ∧
        ∀ earlier ≤ row, ∃ column ∈ table.columns, ¬ (column.value? earlier).isSome := by
  rw [leadingPartialRows, rows_eq_map_rowAt, List.takeWhile_eq_take_findIdx_not,
    List.length_take, Nat.min_eq_left List.findIdx_le_length, List.lt_findIdx_iff]
  simp only [List.length_map, List.length_range, List.getElem_map, List.getElem_range,
    Bool.not_eq_false', partial_rowAt_iff, exists_prop]

/-- In an aligned table all columns have a value from the leading rows on. -/
theorem WellAligned.leadingPartialRows_le_iff (wellAligned : table.WellAligned leadingFill)
    (inTable : row < table.rowCount) :
    table.leadingPartialRows ≤ row ↔
      ∀ column ∈ table.columns, (column.value? row).isSome := by
  constructor
  · intro reached column member
    have complete := mt lt_leadingPartialRows_iff.mpr (Nat.not_lt.mpr reached)
    simp only [inTable, true_and, not_forall, not_exists, not_and, not_not] at complete
    obtain ⟨earlier, le, present⟩ := complete
    exact wellAligned.carried column member earlier row le inTable (present column member)
  · intro present
    refine Nat.not_lt.mp fun before => ?_
    obtain ⟨column, member, absent⟩ :=
      (lt_leadingPartialRows_iff.mp before).2 row (Nat.le_refl row)
    exact absent (present column member)

theorem WellAligned.leadingPartialRows_zero (wellAligned : table.WellAligned .zero) :
    table.leadingPartialRows = 0 := by
  have nonempty : 0 < table.rowCount := List.length_pos_iff.mpr wellAligned.index_ne_nil
  apply Nat.le_zero.mp
  rw [wellAligned.leadingPartialRows_le_iff nonempty]
  exact fun column member => wellAligned.filled rfl column member 0 nonempty

/-! ## Rows with rates -/

/-- Some column goes down over the window that ends in a row. -/
def Falls (window : Window) (table : Table Float) (row : Nat) : Prop :=
  ∃ column ∈ table.columns, ∃ change ∈ column.change? window row, change < 0.0

instance (window : Window) (table : Table Float) (row : Nat) :
    Decidable (table.Falls window row) :=
  inferInstanceAs (Decidable (∃ column ∈ _, ∃ change ∈ _, _))

theorem elapsed_of_ascending (ascending : table.index.Pairwise (· < ·))
    (reaches : window.rows ≤ row) (inTable : row < table.rowCount) :
    ¬ table.elapsed window row ≤ 0.0 := by
  have before : row - window.rows < row := Nat.sub_lt_self window.positive reaches
  have positive : 0 < (table.timeAt row).nanosSince (table.timeAt (row - window.rows)) :=
    Int.sub_pos.mpr (timeAt_lt ascending before inTable)
  exact Number.not_seconds_le_zero positive

/-- A row of an aligned table has rates when all columns have a value at the
start of its window, and no reset is skipped in it. -/
theorem WellAligned.hasRates_iff (wellAligned : table.WellAligned leadingFill)
    (inTable : row < table.rowCount) :
    table.HasRates window policy row ↔
      table.leadingPartialRows + window.rows ≤ row ∧
        (policy = .skip → ¬ table.Falls window row) := by
  have atStart : row - window.rows < table.rowCount := by omega
  constructor
  · rintro ⟨_, reaches, _, complete⟩
    constructor
    · have started := (wellAligned.leadingPartialRows_le_iff atStart).mpr fun column member =>
        (Column.isSome_change?_iff.mp (complete column member).1).1
      omega
    · rintro skips ⟨column, member, change, changes, falls⟩
      exact (complete column member).2 skips change changes falls
  · rintro ⟨reached, steady⟩
    have reaches : window.rows ≤ row := by omega
    have started := (wellAligned.leadingPartialRows_le_iff atStart).mp (by omega)
    refine ⟨inTable, reaches, elapsed_of_ascending wellAligned.ascending reaches inTable, ?_⟩
    intro column member
    have ended := wellAligned.carried column member _ row (Nat.sub_le row window.rows) inTable
      (started column member)
    refine ⟨Column.isSome_change?_iff.mpr ⟨started column member, ended⟩, ?_⟩
    exact fun skips change changes falls => steady skips ⟨column, member, change, changes, falls⟩

/-- The rows of an aligned table that have rates. -/
theorem WellAligned.ratedRows_eq (wellAligned : table.WellAligned leadingFill)
    (window : Window) (policy : ResetPolicy) :
    table.ratedRows window policy =
      ((List.range table.rowCount).drop (table.leadingPartialRows + window.rows)).filter
        fun row => decide (policy = .skip → ¬ table.Falls window row) := by
  apply filter_range_eq_filter_drop
  · intro row inTable early
    rw [decide_eq_false_iff_not, wellAligned.hasRates_iff inTable]
    omega
  · intro row inTable late
    rw [decide_eq_decide, wellAligned.hasRates_iff inTable]
    exact and_iff_right late

/-- Kept resets lose no row: the rates stand at the last instants. -/
theorem WellAligned.index_deriveRates_keep (wellAligned : table.WellAligned leadingFill)
    (window : Window) (unitScale : Float) :
    (deriveRates window unitScale .keep table).table.index =
      table.index.drop (table.leadingPartialRows + window.rows) := by
  rw [index_deriveRates, wellAligned.ratedRows_eq, ← table.map_timeAt_range]
  simp only [reduceCtorEq, false_implies, decide_true, List.filter_true, List.map_drop]

/-- Skipped resets lose the rows over whose window a column goes down. -/
theorem WellAligned.index_deriveRates_skip (wellAligned : table.WellAligned leadingFill)
    (window : Window) (unitScale : Float) :
    (deriveRates window unitScale .skip table).table.index =
      (((List.range table.rowCount).drop (table.leadingPartialRows + window.rows)).filter
        fun row => decide (¬ table.Falls window row)).map table.timeAt := by
  rw [index_deriveRates, wellAligned.ratedRows_eq]
  simp only [true_implies]

/-- No window of an aligned table is degenerate. -/
theorem WellAligned.degenerateWindows_eq_zero (wellAligned : table.WellAligned leadingFill)
    (window : Window) (unitScale : Float) (policy : ResetPolicy) :
    (deriveRates window unitScale policy table).stats.degenerateWindows = 0 := by
  simp only [deriveRates, windowOutcomes_eq_map, List.countP_map, List.countP_eq_zero]
  intro row member
  obtain ⟨reaches, inTable⟩ := List.mem_range'_1.mp member
  have advances := elapsed_of_ascending wellAligned.ascending reaches (by omega)
  simp only [Function.comp_apply, outcomeAt, if_neg advances, completeOutcome]
  split <;> simp [WindowOutcome.isDegenerate]

end Table

/-! ## The rates of a family -/

theorem SameColumns.index_deriveRates {first second : Table Float}
    (same : SameColumns first second) (window : Window) (unitScale : Float)
    (policy : ResetPolicy) :
    (deriveRates window unitScale policy first).table.index =
      (deriveRates window unitScale policy second).table.index := by
  rw [Table.index_deriveRates, Table.index_deriveRates, same.ratedRows, same.timeAt]

namespace FamilySpec

variable {spec : FamilySpec} {samples : List Sample} {output : FamilyOutput}

/-- The rates that a family would have without an order of its columns. -/
def unarrangedRates (spec : FamilySpec) (samples : List Sample) : RateTable :=
  deriveRates spec.window spec.unitScale spec.resetPolicy (spec.aligned samples)

/-- Arranging the columns changes neither the rows of the rates nor what is
counted. -/
theorem rates_of_process (cumulative : spec.kind = .cumulative)
    (processed : spec.process samples = .ok output) :
    output.derived.table.index = (spec.unarrangedRates samples).table.index ∧
      output.derived.stats = (spec.unarrangedRates samples).stats ∧
        output.alignedRows = (spec.aligned samples).rowCount := by
  obtain ⟨_, arranged, succeeded, rfl⟩ := process_eq_ok_iff.mp processed
  have same : SameColumns arranged (spec.aligned samples) := sameColumns_of_arrange succeeded
  have derived : spec.derive arranged =
      .rates (deriveRates spec.window spec.unitScale spec.resetPolicy arranged) := by
    rw [derive, cumulative]
    rfl
  simp only [outputOf, derived]
  exact ⟨same.index_deriveRates _ _ _, same.stats_deriveRates _ _ _, same.rowCount⟩

/-- The rates of a family stand at the last instants of its aligned table.  The
rows before all columns have a value and as many rows as the window spans are
lost; of the others all have rates when resets are kept, and those over whose
window no column goes down when they are skipped.  No window is degenerate, and
every lost row is counted. -/
theorem process_rates_suffix {spec : FamilySpec} {samples : List Sample}
    {output : FamilyOutput} (cumulative : spec.kind = .cumulative)
    (processed : spec.process samples = .ok output) :
    let aligned := spec.aligned samples
    let lost := aligned.leadingPartialRows + spec.window.rows
    let index := output.derived.table.index
    let stats := output.derived.stats
    output.alignedRows = aligned.rowCount ∧
      (spec.leadingFill = .zero → aligned.leadingPartialRows = 0) ∧
      stats.degenerateWindows = 0 ∧
      stats.warmupRows = min output.alignedRows spec.window.rows ∧
      (spec.resetPolicy = .keep → index = aligned.index.drop lost ∧ stats.counterResets = 0) ∧
      (spec.resetPolicy = .skip →
        index = (((List.range aligned.rowCount).drop lost).filter fun row =>
          decide (¬ aligned.Falls spec.window row)).map aligned.timeAt) ∧
      stats.warmupRows + stats.incompleteRows + index.length = output.alignedRows := by
  intro aligned lost index stats
  let rates := spec.unarrangedRates samples
  obtain ⟨sameIndex, sameStats, rows⟩ : index = rates.table.index ∧ stats = rates.stats ∧
      output.alignedRows = aligned.rowCount := rates_of_process cumulative processed
  have wellAligned : aligned.WellAligned spec.leadingFill :=
    wellAligned_alignSamples spec.aggregation spec.leadingFill (process_eq_ok_iff.mp processed).1
  have degenerate : rates.stats.degenerateWindows = 0 :=
    wellAligned.degenerateWindows_eq_zero spec.window spec.unitScale spec.resetPolicy
  have accounted : rates.stats.warmupRows + rates.stats.degenerateWindows +
      rates.stats.incompleteRows + rates.table.rowCount = aligned.rowCount :=
    rowCount_eq_of_stats spec.window spec.unitScale spec.resetPolicy aligned
  rw [degenerate, Nat.add_zero] at accounted
  rw [sameStats, sameIndex, rows]
  refine ⟨rfl, ?_, degenerate, rfl, ?_, ?_, accounted⟩
  · intro zero
    exact (zero ▸ wellAligned).leadingPartialRows_zero
  · intro keeps
    have kept : rates = deriveRates spec.window spec.unitScale .keep aligned := by
      rw [← keeps]
      rfl
    rw [kept]
    exact ⟨wellAligned.index_deriveRates_keep _ _, counterResets_keep _ _ _⟩
  · intro skips
    have skipped : rates = deriveRates spec.window spec.unitScale .skip aligned := by
      rw [← skips]
      rfl
    rw [skipped]
    exact wellAligned.index_deriveRates_skip _ _

/-- A label that is sampled from the second instant on and goes down at the
fourth one. -/
def fallingTotal : List Sample :=
  [⟨"m", "a", .clamp 1, 1.0⟩, ⟨"m", "b", .clamp 2, 5.0⟩, ⟨"m", "a", .clamp 3, 4.0⟩,
    ⟨"m", "b", .clamp 4, 1.0⟩]

/-- Of the four rows of `fallingTotal` only the third has rates: the first two
come before a window over both labels, and the last one has a reset. -/
theorem process_rates_suffix_fallingTotal :
    let spec : FamilySpec :=
      { FamilySpec.new "m" ⟨["a", "b"], by decide⟩ .cumulative with
        window := ⟨1, by decide⟩ }
    spec.kind = .cumulative ∧ ∃ output, spec.process fallingTotal = .ok output ∧
      output.alignedRows = 4 ∧ output.derived.table.index = [.clamp 3] ∧
        output.derived.stats.warmupRows = 1 ∧ output.derived.stats.incompleteRows = 2 := by
  intro spec
  have recognized : spec.recognized fallingTotal = fallingTotal := by decide
  have times : sampledTimes fallingTotal = [.clamp 1, .clamp 2, .clamp 3, .clamp 4] := by
    rw [sampledTimes, sortedMembers, List.mergeSort_of_pairwise (by decide)]
    decide
  have labels : (sampledLabels fallingTotal).members = ["a", "b"] :=
    eq_of_ascending (fun _ _ => String.lt_asymm) (sampledLabels fallingTotal).ascending
      (by decide) fun label => by simp [mem_sampledLabels, fallingTotal]; tauto
  have ofFirst : observations .last "a" fallingTotal = [⟨.clamp 1, 1.0⟩, ⟨.clamp 3, 4.0⟩] := by
    rw [observations, byTime, List.mergeSort_of_pairwise (by decide)]
    decide +kernel
  have ofSecond : observations .last "b" fallingTotal = [⟨.clamp 2, 5.0⟩, ⟨.clamp 4, 1.0⟩] := by
    rw [observations, byTime, List.mergeSort_of_pairwise (by decide)]
    decide +kernel
  have aligned : spec.aligned fallingTotal =
      { index := [.clamp 1, .clamp 2, .clamp 3, .clamp 4]
        columns := [⟨"a", [some 1.0, some 1.0, some 4.0, some 4.0]⟩,
          ⟨"b", [none, some 5.0, some 5.0, some 1.0]⟩]
        rectangular := by decide } := by
    apply Table.ext_parts
    · rw [FamilySpec.aligned, recognized]
      exact times
    · rw [FamilySpec.aligned, recognized]
      simp only [alignSamples, labels, times, List.map_cons, List.map_nil]
      simp only [spec, FamilySpec.new, ofFirst, ofSecond]
      decide
  obtain ⟨output, processed⟩ : ∃ output, spec.process fallingTotal = .ok output :=
    ⟨_, process_eq_ok_iff.mpr ⟨by rw [recognized]; exact List.cons_ne_nil _ _, _, rfl, rfl⟩⟩
  obtain ⟨rows, -, -, warmup, -, rated, accounted⟩ := process_rates_suffix rfl processed
  rw [aligned] at rows rated
  have four : output.alignedRows = 4 := rows
  have third : output.derived.table.index = [.clamp 3] := (rated rfl).trans (by decide +kernel)
  have first : output.derived.stats.warmupRows = 1 := by rw [warmup, four]; rfl
  rw [first, third, four] at accounted
  refine ⟨rfl, output, processed, four, third, first, ?_⟩
  rw [List.length_singleton] at accounted
  omega

end FamilySpec

end MetricRates
