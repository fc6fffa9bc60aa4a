import Mathlib.Data.List.Basic
import MetricRates.Family.Rates
import MetricRates.Proofs.Table.Positions

/-!
# Windows by position

The window that ends in a row reaches back a fixed number of rows.  What
becomes of it is read off the values of each column at its two ends, so the
rates of a table are known row by row: which rows have rates, and what the rate
of each column is.
-/

namespace MetricRates

open Time

/-! ## One window -/

namespace Column

/-- The change of a column over the window that ends in a row, if the column
has a value at both ends. -/
def change? (window : Window) (column : Column Float) (row : Nat) : Option Float := do
  let before ← column.value? (row - window.rows)
  let after ← column.value? row
  return after - before

/-- The rate of a column over the window that ends in a row, if the column has a
value at both ends. -/
def rate? (window : Window) (unitScale elapsed : Float) (column : Column Float)
    (row : Nat) : Option Float :=
  (column.change? window row).map fun change => change / elapsed * unitScale

/-- What a column gives over the window that ends in a row. -/
def rateAt (window : Window) (unitScale : Float) (policy : ResetPolicy) (elapsed : Float)
    (column : Column Float) (row : Nat) : CellRate :=
  cellRate policy unitScale elapsed (column.value? (row - window.rows), column.value? row)

/-- A column has a rate over a window exactly when it has a value at both ends
and its change is not taken as a reset. -/
def HasRate (window : Window) (policy : ResetPolicy) (column : Column Float)
    (row : Nat) : Prop :=
  (column.change? window row).isSome ∧
    (policy = .skip → ∀ change ∈ column.change? window row, ¬ change < 0.0)

instance (window : Window) (policy : ResetPolicy) (column : Column Float) (row : Nat) :
    Decidable (column.HasRate window policy row) :=
  inferInstanceAs (Decidable (_ ∧ _))

variable {window : Window} {unitScale elapsed : Float} {policy : ResetPolicy}
  {column : Column Float} {row : Nat}

theorem value?_rateAt :
    (column.rateAt window unitScale policy elapsed row).value? =
      if column.HasRate window policy row then column.rate? window unitScale elapsed row
      else none := by
  cases before : column.value? (row - window.rows) with
  | none => simp [rateAt, cellRate, HasRate, change?, before, CellRate.value?]
  | some first =>
      cases after : column.value? row with
      | none => simp [rateAt, cellRate, HasRate, change?, before, after, CellRate.value?]
      | some last =>
          by_cases reset : last - first < 0.0 ∧ policy = .skip
          · have noRate : ¬ column.HasRate window policy row := by
              intro hasRate
              exact hasRate.2 reset.2 (last - first) (by simp [change?, before, after]) reset.1
            rw [if_neg noRate]
            simp [rateAt, cellRate, before, after, reset, CellRate.value?]
          · have hasRate : column.HasRate window policy row := by
              refine ⟨by simp [change?, before, after], fun skips change member decreased => ?_⟩
              have same : last - first = change := by simpa [change?, before, after] using member
              exact reset ⟨same ▸ decreased, skips⟩
            simp [rateAt, cellRate, before, after, reset, hasRate, rate?, change?,
              CellRate.value?]

theorem isSome_value?_rateAt_iff :
    (column.rateAt window unitScale policy elapsed row).value?.isSome ↔
      column.HasRate window policy row := by
  rw [value?_rateAt]
  split
  · rename_i hasRate
    simpa [rate?, hasRate] using hasRate.1
  · simpa

end Column

namespace Table

/-- The seconds over the window that ends in a row. -/
def elapsed (window : Window) (table : Table Float) (row : Nat) : Float :=
  (table.timeAt row).secondsSince (table.timeAt (row - window.rows))

/-- What becomes of the window that ends in a row. -/
def outcomeAt (window : Window) (unitScale : Float) (policy : ResetPolicy)
    (table : Table Float) (row : Nat) : WindowOutcome :=
  let elapsed := table.elapsed window row
  if elapsed ≤ 0.0 then .degenerate (table.timeAt row) elapsed
  else
    completeOutcome (table.timeAt row)
      (table.columns.map fun column => column.rateAt window unitScale policy elapsed row)

/-- A row has rates when its window lies in the table, time advances over it,
and every column has a rate over it. -/
structure HasRates (window : Window) (policy : ResetPolicy) (table : Table Float)
    (row : Nat) : Prop where
  inTable : row < table.rowCount
  reaches : window.rows ≤ row
  advances : ¬ table.elapsed window row ≤ 0.0
  complete : ∀ column ∈ table.columns, column.HasRate window policy row

instance (window : Window) (policy : ResetPolicy) (table : Table Float) (row : Nat) :
    Decidable (table.HasRates window policy row) :=
  decidable_of_iff
    (row < table.rowCount ∧ window.rows ≤ row ∧ ¬ table.elapsed window row ≤ 0.0 ∧
      ∀ column ∈ table.columns, column.HasRate window policy row)
    ⟨fun ⟨inTable, reaches, advances, complete⟩ => ⟨inTable, reaches, advances, complete⟩,
      fun hasRates =>
        ⟨hasRates.inTable, hasRates.reaches, hasRates.advances, hasRates.complete⟩⟩

/-- The positions of the rows that have rates. -/
def ratedRows (window : Window) (policy : ResetPolicy) (table : Table Float) : List Nat :=
  (List.range table.rowCount).filter fun row => decide (table.HasRates window policy row)

/-- The rates of the columns in a row. -/
def rateRow (window : Window) (unitScale : Float) (table : Table Float) (row : Nat) :
    Row Float where
  time := table.timeAt row
  cells := table.columns.map fun column =>
    column.rate? window unitScale (table.elapsed window row) row

variable {window : Window} {unitScale : Float} {policy : ResetPolicy} {table : Table Float}
  {row : Nat}

theorem outcome_rowAt :
    Span.outcome policy unitScale ⟨table.rowAt (row - window.rows), table.rowAt row⟩ =
      table.outcomeAt window unitScale policy row := by
  have rates : Span.rates policy unitScale ⟨table.rowAt (row - window.rows), table.rowAt row⟩ =
      table.columns.map fun column =>
        column.rateAt window unitScale policy (table.elapsed window row) row := by
    simp only [Span.rates, Span.cellPairs, rowAt, List.zip_map', List.map_map]
    rfl
  rw [Span.outcome, rates]
  rfl

/-- The windows of a table are those that end in its rows from the window size
on. -/
theorem spans_rows (window : Window) (table : Table Float) :
    spans window table.rows =
      (List.range' window.rows (table.rowCount - window.rows)).map fun row =>
        ⟨table.rowAt (row - window.rows), table.rowAt row⟩ := by
  rw [spans, rows_eq_map_rowAt]
  apply List.ext_getElem
  · simp
  · intro position _ _
    simp only [List.getElem_zipWith, List.getElem_drop, List.getElem_map, List.getElem_range,
      List.getElem_range', Nat.one_mul, Nat.add_sub_cancel_left]

theorem windowOutcomes_eq_map (window : Window) (unitScale : Float) (policy : ResetPolicy)
    (table : Table Float) :
    windowOutcomes window unitScale policy table =
      (List.range' window.rows (table.rowCount - window.rows)).map
        (table.outcomeAt window unitScale policy) := by
  rw [windowOutcomes, spans_rows, List.map_map]
  exact List.map_congr_left fun _ _ => outcome_rowAt

/-- A window gives a row exactly when the row in which it ends has rates. -/
theorem row?_outcomeAt (inTable : row < table.rowCount) (reaches : window.rows ≤ row) :
    (table.outcomeAt window unitScale policy row).row? =
      if table.HasRates window policy row then some (table.rateRow window unitScale row)
      else none := by
  by_cases stands : table.elapsed window row ≤ 0.0
  · rw [if_neg fun hasRates => hasRates.advances stands]
    simp [outcomeAt, stands, WindowOutcome.row?]
  · by_cases complete : ∀ column ∈ table.columns, column.HasRate window policy row
    · have hasRates : table.HasRates window policy row := ⟨inTable, reaches, stands, complete⟩
      have rates : (table.columns.map fun column =>
          (column.rateAt window unitScale policy (table.elapsed window row) row).value?) =
          (table.rateRow window unitScale row).cells := by
        apply List.map_congr_left
        intro column member
        rw [Column.value?_rateAt, if_pos (complete column member)]
      rw [if_pos hasRates]
      simp only [outcomeAt, if_neg stands, completeOutcome, List.all_map, List.map_map]
      rw [if_pos]
      · simp only [WindowOutcome.row?, Function.comp_def, rates]
        rfl
      · simpa [Column.isSome_value?_rateAt_iff] using complete
    · rw [if_neg fun hasRates => complete hasRates.complete]
      simp only [outcomeAt, if_neg stands, completeOutcome, List.all_map]
      rw [if_neg]
      · rfl
      · simpa [Column.isSome_value?_rateAt_iff] using complete

theorem filter_range_eq_filter_drop {n start : Nat} {p q : Nat → Bool}
    (early : ∀ row < n, row < start → p row = false)
    (late : ∀ row < n, start ≤ row → p row = q row) :
    (List.range n).filter p = ((List.range n).drop start).filter q := by
  conv => lhs; rw [← List.take_append_drop start (List.range n), List.filter_append]
  rw [List.filter_eq_nil_iff.mpr, List.nil_append]
  · apply List.filter_congr
    intro row member
    rw [List.range_eq_range', List.drop_range', List.mem_range'_1] at member
    exact late row (by omega) (by omega)
  · intro row member
    rw [List.take_range, List.mem_range] at member
    simp [early row (by omega) (by omega)]

/-- Only rows from the window size on can have rates. -/
theorem ratedRows_eq_filter_range' (window : Window) (policy : ResetPolicy)
    (table : Table Float) :
    table.ratedRows window policy =
      (List.range' window.rows (table.rowCount - window.rows)).filter fun row =>
        decide (table.HasRates window policy row) := by
  have later : (List.range table.rowCount).drop window.rows =
      List.range' window.rows (table.rowCount - window.rows) := by
    rw [List.range_eq_range', List.drop_range', Nat.zero_add, Nat.mul_one]
  rw [ratedRows, ← later]
  apply filter_range_eq_filter_drop
  · intro row _ early
    rw [decide_eq_false_iff_not]
    exact fun hasRates => Nat.not_lt.mpr hasRates.reaches early
  · exact fun _ _ _ => rfl

/-- The complete windows of a table give the rates of the rows that have
rates. -/
theorem filterMap_row?_windowOutcomes (window : Window) (unitScale : Float)
    (policy : ResetPolicy) (table : Table Float) :
    (windowOutcomes window unitScale policy table).filterMap WindowOutcome.row? =
      (table.ratedRows window policy).map (table.rateRow window unitScale) := by
  rw [windowOutcomes_eq_map, List.filterMap_map, ratedRows_eq_filter_range']
  have outcomes : ∀ row ∈ List.range' window.rows (table.rowCount - window.rows),
      (WindowOutcome.row? ∘ table.outcomeAt window unitScale policy) row =
        if table.HasRates window policy row then some (table.rateRow window unitScale row)
        else none := by
    intro row member
    obtain ⟨reaches, inTable⟩ := List.mem_range'_1.mp member
    exact row?_outcomeAt (by omega) reaches
  rw [List.filterMap_congr outcomes, ← List.filterMap_eq_map, List.filterMap_filter]
  simp only [decide_eq_true_eq, Function.comp_apply]

end Table

/-! ## The rates of a table -/

namespace Table

variable {window : Window} {unitScale : Float} {policy : ResetPolicy} {table : Table Float}

theorem index_deriveRates :
    (deriveRates window unitScale policy table).table.index =
      (table.ratedRows window policy).map table.timeAt := by
  simp only [deriveRates, index_ofRows, filterMap_row?_windowOutcomes, List.map_map]
  rfl

theorem columns_deriveRates :
    (deriveRates window unitScale policy table).table.columns =
      table.columns.map fun column =>
        { name := column.name
          cells := (table.ratedRows window policy).map fun row =>
            column.rate? window unitScale (table.elapsed window row) row } := by
  simp only [deriveRates, filterMap_row?_windowOutcomes]
  exact columns_ofRows_map table table.timeAt _ _

/-- The rows of the rates, in their order. -/
theorem rows_deriveRates :
    (deriveRates window unitScale policy table).table.rows =
      (table.ratedRows window policy).map (table.rateRow window unitScale) := by
  simp only [deriveRates, filterMap_row?_windowOutcomes]
  apply rows_ofRows
  intro row member
  obtain ⟨_, _, rfl⟩ := List.mem_map.mp member
  simp [rateRow, names]

end Table

/-- The rates of a table are its windowed differences.  Its rows are the rows
that have rates, in their order, and the cell of each column in such a row is
the change of that column over the window, by the seconds and times the scale;
every cell is present. -/
theorem deriveRates_windowed_difference (window : Window) (unitScale : Float)
    (policy : ResetPolicy) (table : Table Float) :
    let derived := (deriveRates window unitScale policy table).table
    derived.names = table.names ∧
      derived.index = (table.ratedRows window policy).map table.timeAt ∧
      (derived.columns = table.columns.map fun column =>
        { name := column.name
          cells := (table.ratedRows window policy).map fun row =>
            column.rate? window unitScale (table.elapsed window row) row }) ∧
      derived.columns.all fun column => column.cells.all Option.isSome := by
  refine ⟨Table.names_ofRows _ _, Table.index_deriveRates, Table.columns_deriveRates, ?_⟩
  rw [Table.columns_deriveRates]
  simp only [List.all_map, List.all_eq_true, Function.comp_apply]
  intro column member row rated
  have hasRates := of_decide_eq_true (List.mem_filter.mp rated).2
  have present := (hasRates.complete column member).1
  simpa [Column.rate?] using present

end MetricRates
