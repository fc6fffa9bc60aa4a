import Mathlib.Algebra.GroupWithZero.Nat
import Mathlib.Data.List.ProdSigma
import MetricRates.Proofs.Family.StageOrder

/-!
# What the counts of a rate table count

Each row of a table is accounted for once: it has no row that far before it, its
window is degenerate or incomplete, or it has rates.  Resets are counted for each
column, also in rows that are lost because of another column.
-/

namespace MetricRates

variable {window : Window} {unitScale elapsed : Float} {policy : ResetPolicy}
  {table : Table Float} {row : Nat}

/-- A window is degenerate, incomplete or complete. -/
theorem length_eq_of_outcomes (outcomes : List WindowOutcome) :
    outcomes.countP WindowOutcome.isDegenerate + outcomes.countP WindowOutcome.isIncomplete +
      (outcomes.filterMap WindowOutcome.row?).length = outcomes.length := by
  induction outcomes with
  | nil => rfl
  | cons outcome rest ih =>
      simp only [List.countP_cons, List.filterMap_cons, List.length_cons]
      cases outcome <;>
        simp [WindowOutcome.isDegenerate, WindowOutcome.isIncomplete, WindowOutcome.row?] <;> omega

theorem length_windowOutcomes :
    (windowOutcomes window unitScale policy table).length = table.rowCount - window.rows := by
  simp [Table.windowOutcomes_eq_map]

/-- The counts of a rate table and its rows add up to the rows of the table that
it was derived from. -/
theorem rowCount_eq_of_stats (window : Window) (unitScale : Float) (policy : ResetPolicy)
    (table : Table Float) :
    let rates := deriveRates window unitScale policy table
    rates.stats.warmupRows + rates.stats.degenerateWindows + rates.stats.incompleteRows +
      rates.table.rowCount = table.rowCount := by
  have outcomes := length_eq_of_outcomes (windowOutcomes window unitScale policy table)
  rw [length_windowOutcomes] at outcomes
  simp only [deriveRates, Table.rowCount, Table.index_ofRows, List.length_map] at outcomes ⊢
  omega

/-! ## Columns without a rate -/

namespace Column

variable {column : Column Float}

/-- A column goes down over the window that ends in a row. -/
def Falls (window : Window) (column : Column Float) (row : Nat) : Prop :=
  ∃ change ∈ column.change? window row, change < 0.0

/-- A column has no rate over a window where a value is absent at one of its ends, or a
reset is skipped. -/
def LacksRate (window : Window) (policy : ResetPolicy) (column : Column Float)
    (row : Nat) : Prop :=
  column.value? (row - window.rows) = none ∨ column.value? row = none ∨
    (policy = .skip ∧ column.Falls window row)

instance (window : Window) (column : Column Float) (row : Nat) :
    Decidable (column.Falls window row) :=
  inferInstanceAs (Decidable (∃ change ∈ _, _))

instance (window : Window) (policy : ResetPolicy) (column : Column Float) (row : Nat) :
    Decidable (column.LacksRate window policy row) :=
  inferInstanceAs (Decidable (_ ∨ _))

theorem isSome_change?_iff :
    (column.change? window row).isSome ↔
      (column.value? (row - window.rows)).isSome ∧ (column.value? row).isSome := by
  rw [change?]
  cases column.value? (row - window.rows) <;> cases column.value? row <;> simp

theorem not_hasRate_iff :
    ¬ column.HasRate window policy row ↔ column.LacksRate window policy row := by
  rw [HasRate, LacksRate, isSome_change?_iff, Falls]
  simp only [Option.isSome_iff_ne_none, ne_eq, not_and_or, Classical.not_imp, not_not, not_forall,
    or_assoc]

/-- A column gives a reset where it goes down and resets are skipped. -/
theorem rateAt_eq_reset_iff :
    column.rateAt window unitScale policy elapsed row = .reset ↔
      policy = .skip ∧ column.Falls window row := by
  cases before : column.value? (row - window.rows) with
  | none => simp [rateAt, cellRate, Falls, change?, before]
  | some first =>
      cases after : column.value? row with
      | none => simp [rateAt, cellRate, Falls, change?, before, after]
      | some last =>
          by_cases reset : last - first < 0.0 ∧ policy = .skip
          · simp [rateAt, cellRate, Falls, change?, before, after, reset]
          · simp [rateAt, cellRate, Falls, change?, before, after, and_comm]

end Column

/-! ## What a window adds to the counts -/

section CompleteOutcome

variable (time : Time.Timestamp) (rates : List CellRate)

theorem isDegenerate_completeOutcome : (completeOutcome time rates).isDegenerate = false := by
  unfold completeOutcome
  split <;> rfl

theorem isIncomplete_completeOutcome :
    (completeOutcome time rates).isIncomplete = rates.any fun rate => !rate.value?.isSome := by
  rw [completeOutcome, List.any_eq_not_all_not]
  simp only [Bool.not_not]
  split
  · rename_i complete
    simp [complete, WindowOutcome.isIncomplete]
  · rename_i lacking
    simp [lacking, WindowOutcome.isIncomplete]

/-- Every reset counts: where there is one, the rates are not complete. -/
theorem resets_completeOutcome : (completeOutcome time rates).resets = rates.count .reset := by
  unfold completeOutcome
  split
  · rename_i complete
    refine (List.count_eq_zero.mpr fun reset => ?_).symm
    exact absurd (List.all_eq_true.mp complete _ reset) (by simp [CellRate.value?])
  · rfl

end CompleteOutcome

namespace Table

/-- The rates of the columns over the window that ends in a row. -/
def ratesAt (window : Window) (unitScale : Float) (policy : ResetPolicy) (table : Table Float)
    (row : Nat) : List CellRate :=
  table.columns.map fun column =>
    column.rateAt window unitScale policy (table.elapsed window row) row

theorem outcomeAt_of_stands (stands : table.elapsed window row ≤ 0.0) :
    table.outcomeAt window unitScale policy row =
      .degenerate (table.timeAt row) (table.elapsed window row) :=
  if_pos stands

theorem outcomeAt_of_advances (advances : ¬ table.elapsed window row ≤ 0.0) :
    table.outcomeAt window unitScale policy row =
      completeOutcome (table.timeAt row) (table.ratesAt window unitScale policy row) :=
  if_neg advances

theorem isDegenerate_outcomeAt :
    (table.outcomeAt window unitScale policy row).isDegenerate =
      decide (table.elapsed window row ≤ 0.0) := by
  by_cases stands : table.elapsed window row ≤ 0.0
  · rw [outcomeAt_of_stands stands, decide_eq_true stands]
    rfl
  · rw [outcomeAt_of_advances stands, isDegenerate_completeOutcome, decide_eq_false stands]

theorem isIncomplete_outcomeAt :
    (table.outcomeAt window unitScale policy row).isIncomplete =
      decide (¬ table.elapsed window row ≤ 0.0 ∧
        ∃ column ∈ table.columns, column.LacksRate window policy row) := by
  by_cases stands : table.elapsed window row ≤ 0.0
  · rw [outcomeAt_of_stands stands, decide_eq_false fun compared => compared.1 stands]
    rfl
  · rw [outcomeAt_of_advances stands, isIncomplete_completeOutcome, Bool.eq_iff_iff]
    simp only [ratesAt, List.any_map, List.any_eq_true, Function.comp_apply, Bool.not_eq_true',
      ← Bool.not_eq_true, Column.isSome_value?_rateAt_iff, Column.not_hasRate_iff,
      decide_eq_true_eq, stands, not_false_eq_true, true_and]

theorem resets_outcomeAt :
    (table.outcomeAt window unitScale policy row).resets =
      table.columns.countP fun column =>
        decide (policy = .skip ∧ ¬ table.elapsed window row ≤ 0.0 ∧ column.Falls window row) := by
  by_cases stands : table.elapsed window row ≤ 0.0
  · rw [outcomeAt_of_stands stands, eq_comm]
    exact List.countP_eq_zero.mpr fun column _ => by simp [stands]
  · rw [outcomeAt_of_advances stands, resets_completeOutcome, ratesAt, List.count, List.countP_map]
    apply List.countP_congr
    intro column _
    simp [Column.rateAt_eq_reset_iff, stands]

end Table

/-! ## The counts of all windows -/

theorem range_eq_append (start n : Nat) :
    List.range n = List.range (min start n) ++ List.range' start (n - start) := by
  rw [← List.take_append_drop start (List.range n), List.take_range]
  congr 1
  rw [List.range_eq_range', List.drop_range', Nat.zero_add, Nat.mul_one]

/-- What windows add up to is what the rows add up to, where a row without a window adds
nothing. -/
theorem sum_windowOutcomes {value : WindowOutcome → Nat} {share : Nat → Nat}
    (early : ∀ row < window.rows, share row = 0)
    (late : ∀ row, window.rows ≤ row →
      value (table.outcomeAt window unitScale policy row) = share row) :
    ((windowOutcomes window unitScale policy table).map value).sum =
      ((List.range table.rowCount).map share).sum := by
  have warmup : ((List.range (min window.rows table.rowCount)).map share).sum = 0 := by
    rw [List.sum_eq_zero_iff_forall_eq_nat]
    intro n member
    obtain ⟨row, inRange, rfl⟩ := List.mem_map.mp member
    exact early row (by rw [List.mem_range] at inRange; omega)
  have compared : ∀ row ∈ List.range' window.rows (table.rowCount - window.rows),
      (value ∘ table.outcomeAt window unitScale policy) row = share row :=
    fun row member => late row (List.mem_range'_1.mp member).1
  rw [Table.windowOutcomes_eq_map, List.map_map, List.map_congr_left compared,
    range_eq_append window.rows table.rowCount, List.map_append, List.sum_append, warmup,
    Nat.zero_add]

theorem countP_eq_sum_map {α : Type} (test : α → Bool) (list : List α) :
    list.countP test = (list.map fun a => (test a).toNat).sum := by
  induction list with
  | nil => rfl
  | cons a list ih =>
      rw [List.countP_cons, List.map_cons, List.sum_cons, ih, Nat.add_comm]
      cases test a <;> rfl

theorem countP_windowOutcomes {test : WindowOutcome → Bool} {counted : Nat → Bool}
    (early : ∀ row < window.rows, counted row = false)
    (late : ∀ row, window.rows ≤ row →
      test (table.outcomeAt window unitScale policy row) = counted row) :
    (windowOutcomes window unitScale policy table).countP test =
      (List.range table.rowCount).countP counted := by
  rw [countP_eq_sum_map, countP_eq_sum_map]
  apply sum_windowOutcomes
  · intro row before
    rw [early row before]
    rfl
  · intro row reaches
    rw [late row reaches]

namespace Table

/-- Time does not advance over the window that ends in a row. -/
def IsDegenerate (window : Window) (table : Table Float) (row : Nat) : Prop :=
  window.rows ≤ row ∧ table.elapsed window row ≤ 0.0

/-- Time advances over the window that ends in a row. -/
def IsCompared (window : Window) (table : Table Float) (row : Nat) : Prop :=
  window.rows ≤ row ∧ ¬ table.elapsed window row ≤ 0.0

instance (window : Window) (table : Table Float) (row : Nat) :
    Decidable (table.IsDegenerate window row) :=
  inferInstanceAs (Decidable (_ ∧ _))

instance (window : Window) (table : Table Float) (row : Nat) :
    Decidable (table.IsCompared window row) :=
  inferInstanceAs (Decidable (_ ∧ _))

theorem degenerateWindows_eq_countP (window : Window) (unitScale : Float)
    (policy : ResetPolicy) (table : Table Float) :
    (deriveRates window unitScale policy table).stats.degenerateWindows =
      (List.range table.rowCount).countP fun row => decide (table.IsDegenerate window row) := by
  apply countP_windowOutcomes
  · intro row before
    exact decide_eq_false fun degenerate => Nat.not_lt.mpr degenerate.1 before
  · intro row reaches
    rw [isDegenerate_outcomeAt]
    exact decide_eq_decide.mpr (and_iff_right reaches).symm

theorem incompleteRows_eq_countP (window : Window) (unitScale : Float)
    (policy : ResetPolicy) (table : Table Float) :
    (deriveRates window unitScale policy table).stats.incompleteRows =
      (List.range table.rowCount).countP fun row =>
        decide (table.IsCompared window row ∧
          ∃ column ∈ table.columns, column.LacksRate window policy row) := by
  apply countP_windowOutcomes
  · intro row before
    exact decide_eq_false fun lost => Nat.not_lt.mpr lost.1.1 before
  · intro row reaches
    rw [isIncomplete_outcomeAt]
    exact decide_eq_decide.mpr (and_congr_left fun _ => (and_iff_right reaches).symm)

/-- Resets are counted by row and column. -/
theorem counterResets_eq_countP (window : Window) (unitScale : Float) (policy : ResetPolicy)
    (table : Table Float) :
    (deriveRates window unitScale policy table).stats.counterResets =
      (List.range table.rowCount ×ˢ table.columns).countP fun cell =>
        decide (policy = .skip ∧ table.IsCompared window cell.1 ∧
          cell.2.Falls window cell.1) := by
  have byRow : (List.range table.rowCount ×ˢ table.columns).countP (fun cell =>
      decide (policy = .skip ∧ table.IsCompared window cell.1 ∧ cell.2.Falls window cell.1)) =
      ((List.range table.rowCount).map fun row => table.columns.countP fun column =>
        decide (policy = .skip ∧ table.IsCompared window row ∧ column.Falls window row)).sum := by
    refine List.countP_flatMap.trans ?_
    simp only [Function.comp_def, List.countP_map]
  rw [byRow, deriveRates, ← List.sum_eq_foldl]
  apply sum_windowOutcomes
  · intro row before
    exact List.countP_eq_zero.mpr fun column _ counted =>
      Nat.not_lt.mpr (of_decide_eq_true counted).2.1.1 before
  · intro row reaches
    rw [resets_outcomeAt]
    apply List.countP_congr
    intro column _
    simp only [IsCompared, reaches, true_and]

end Table

/-- No reset is counted when resets are kept. -/
theorem counterResets_keep (window : Window) (unitScale : Float) (table : Table Float) :
    (deriveRates window unitScale .keep table).stats.counterResets = 0 := by
  rw [Table.counterResets_eq_countP, List.countP_eq_zero]
  simp

/-- Every row of a table is counted once: as a row without a row that far before it, as one
over whose window time does not advance, as one with a column that has no rate, or as a row
of the rates.  Resets are counted by row and column, and not at all when they are kept. -/
theorem deriveRates_accounts_for_rows (window : Window) (unitScale : Float)
    (policy : ResetPolicy) (table : Table Float) :
    let rates := deriveRates window unitScale policy table
    let rows := List.range table.rowCount
    rates.stats.warmupRows = min table.rowCount window.rows ∧
      rates.stats.degenerateWindows =
        rows.countP (fun row => decide (table.IsDegenerate window row)) ∧
      rates.stats.counterResets =
        (rows ×ˢ table.columns).countP (fun cell =>
          decide (policy = .skip ∧ table.IsCompared window cell.1 ∧
            cell.2.Falls window cell.1)) ∧
      (deriveRates window unitScale .keep table).stats.counterResets = 0 ∧
      rates.stats.incompleteRows =
        rows.countP (fun row => decide (table.IsCompared window row ∧
          ∃ column ∈ table.columns, column.LacksRate window policy row)) ∧
      rates.stats.warmupRows + rates.stats.degenerateWindows + rates.stats.incompleteRows +
        rates.table.rowCount = table.rowCount :=
  ⟨rfl, Table.degenerateWindows_eq_countP window unitScale policy table,
    Table.counterResets_eq_countP window unitScale policy table,
    counterResets_keep window unitScale table,
    Table.incompleteRows_eq_countP window unitScale policy table,
    rowCount_eq_of_stats window unitScale policy table⟩

/-- A row with a reset in one column and an absent value in another is lost once, and a
window without time is lost before its columns are looked at. -/
example :
    let table : Table Float :=
      { index := [.clamp 0, .clamp 1, .clamp 2, .clamp 2]
        columns := [⟨"a", [some 5.0, some 1.0, some 2.0, some 0.0]⟩,
          ⟨"b", [none, some 3.0, some 4.0, none]⟩]
        rectangular := by decide }
    (deriveRates ⟨1, by decide⟩ 1.0 .skip table).stats = ⟨1, 1, 1, 1⟩ := by
  decide +kernel

end MetricRates
