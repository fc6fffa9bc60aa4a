import MetricRates.Proofs.Family.Windows
import MetricRates.Proofs.Table.Arrangement

/-!
# Arranging before or after deriving

A window is judged by all columns of a table together, whatever their order, and
each column keeps its name and its place when it is made into rates or scaled.
So a table can be arranged before it is derived or afterwards.
-/

namespace MetricRates

/-! ## Tables with the same columns in another order -/

/-- Two tables have the same rows and the same columns, up to the order of the
columns. -/
structure SameColumns (first second : Table Float) : Prop where
  index : first.index = second.index
  columns : first.columns.Perm second.columns

theorem sameColumns_arrange (order : List String) (table : Table Float) :
    SameColumns (table.arrange order) table where
  index := Table.index_arrange order table
  columns := Table.columns_arrange_perm order table

namespace SameColumns

variable {first second : Table Float}

theorem symm (same : SameColumns first second) : SameColumns second first :=
  ⟨same.index.symm, same.columns.symm⟩

theorem rowCount (same : SameColumns first second) : first.rowCount = second.rowCount :=
  congrArg List.length same.index

theorem timeAt (same : SameColumns first second) : first.timeAt = second.timeAt := by
  funext row
  rw [Table.timeAt, Table.timeAt, same.index]

theorem elapsed (same : SameColumns first second) (window : Window) :
    first.elapsed window = second.elapsed window := by
  funext row
  rw [Table.elapsed, Table.elapsed, same.timeAt]

theorem hasRates {window : Window} {policy : ResetPolicy} {row : Nat}
    (same : SameColumns first second) (hasRates : first.HasRates window policy row) :
    second.HasRates window policy row := by
  rcases hasRates with ⟨inTable, reaches, advances, complete⟩
  rw [same.rowCount] at inTable
  rw [same.elapsed] at advances
  exact ⟨inTable, reaches, advances, fun column member =>
    complete column (same.columns.mem_iff.mpr member)⟩

/-- The same rows have rates. -/
theorem ratedRows (same : SameColumns first second) (window : Window)
    (policy : ResetPolicy) :
    first.ratedRows window policy = second.ratedRows window policy := by
  rw [Table.ratedRows, Table.ratedRows, same.rowCount]
  apply List.filter_congr
  intro row _
  exact decide_eq_decide.mpr ⟨same.hasRates, same.symm.hasRates⟩

end SameColumns

/-! ## Counts -/

/-- What a window adds to the counts. -/
def WindowOutcome.counts (outcome : WindowOutcome) : Bool × Bool × Nat :=
  (outcome.isDegenerate, outcome.isIncomplete, outcome.resets)

/-- The counts of a window do not depend on the order of the columns. -/
theorem counts_completeOutcome_of_perm {first second : List CellRate}
    (permuted : first.Perm second) (time : Time.Timestamp) :
    (completeOutcome time first).counts = (completeOutcome time second).counts := by
  have complete : (first.all fun rate => rate.value?.isSome) =
      second.all fun rate => rate.value?.isSome := permuted.all_eq
  have resets : first.count .reset = second.count .reset := permuted.count_eq _
  rw [completeOutcome, completeOutcome, complete]
  split
  · rfl
  · rw [resets]

theorem SameColumns.counts_outcomeAt {first second : Table Float}
    (same : SameColumns first second) (window : Window) (unitScale : Float)
    (policy : ResetPolicy) (row : Nat) :
    (first.outcomeAt window unitScale policy row).counts =
      (second.outcomeAt window unitScale policy row).counts := by
  rw [Table.outcomeAt, Table.outcomeAt, same.elapsed, same.timeAt]
  split
  · rfl
  · exact counts_completeOutcome_of_perm (same.columns.map _) _

/-- The counts of the windows of a table, one after another. -/
def windowCounts (window : Window) (unitScale : Float) (policy : ResetPolicy)
    (table : Table Float) : List (Bool × Bool × Nat) :=
  (windowOutcomes window unitScale policy table).map WindowOutcome.counts

theorem SameColumns.windowCounts {first second : Table Float}
    (same : SameColumns first second) (window : Window) (unitScale : Float)
    (policy : ResetPolicy) :
    windowCounts window unitScale policy first = windowCounts window unitScale policy second := by
  rw [MetricRates.windowCounts, MetricRates.windowCounts, Table.windowOutcomes_eq_map,
    Table.windowOutcomes_eq_map, same.rowCount, List.map_map, List.map_map]
  exact List.map_congr_left fun row _ => same.counts_outcomeAt window unitScale policy row

/-- The counts of a rate table are those of its windows. -/
theorem stats_deriveRates (window : Window) (unitScale : Float) (policy : ResetPolicy)
    (table : Table Float) :
    (deriveRates window unitScale policy table).stats =
      { warmupRows := min table.rowCount window.rows
        degenerateWindows := (windowCounts window unitScale policy table).countP (·.1)
        counterResets := ((windowCounts window unitScale policy table).map (·.2.2)).foldl (· + ·) 0
        incompleteRows := (windowCounts window unitScale policy table).countP (·.2.1) } := by
  simp only [deriveRates, windowCounts, List.countP_map, List.map_map]
  rfl

theorem SameColumns.stats_deriveRates {first second : Table Float}
    (same : SameColumns first second) (window : Window) (unitScale : Float)
    (policy : ResetPolicy) :
    (deriveRates window unitScale policy first).stats =
      (deriveRates window unitScale policy second).stats := by
  rw [MetricRates.stats_deriveRates, MetricRates.stats_deriveRates, same.windowCounts,
    same.rowCount]

/-! ## The two stages -/

/-- A column made into rates in some rows. -/
def Column.rates (window : Window) (unitScale : Float) (elapsed : Nat → Float)
    (rows : List Nat) (column : Column Float) : Column Float where
  name := column.name
  cells := rows.map fun row => column.rate? window unitScale (elapsed row) row

/-- A column with every value scaled. -/
def Column.scaled (unitScale : Float) (column : Column Float) : Column Float :=
  { column with cells := column.cells.map fun cell => cell.map (· * unitScale) }

/-- The change of columns that deriving a table amounts to. -/
def Table.derivedColumn (kind : MetricKind) (window : Window) (unitScale : Float)
    (policy : ResetPolicy) (table : Table Float) : Column Float → Column Float :=
  match kind with
  | .cumulative =>
      Column.rates window unitScale (table.elapsed window) (table.ratedRows window policy)
  | .instantaneous => Column.scaled unitScale

/-- The derived table with another table in its place; its counts stay. -/
def DerivedTable.withTable : DerivedTable → Table Float → DerivedTable
  | .rates result, table => .rates { result with table }
  | .readings _, table => .readings table

section Stages

variable (kind : MetricKind) (window : Window) (unitScale : Float) (policy : ResetPolicy)

theorem name_derivedColumn (table : Table Float) (column : Column Float) :
    (table.derivedColumn kind window unitScale policy column).name = column.name := by
  cases kind <;> rfl

theorem columns_derive (table : Table Float) :
    (derive kind window unitScale policy table).table.columns =
      table.columns.map (table.derivedColumn kind window unitScale policy) := by
  cases kind with
  | cumulative => exact Table.columns_deriveRates
  | instantaneous => rfl

/-- Deriving an arranged table gives the arranged derived table with the same
counts. -/
theorem derive_arrange (order : List String) (table : Table Float) :
    derive kind window unitScale policy (table.arrange order) =
      (derive kind window unitScale policy table).withTable
        ((derive kind window unitScale policy table).table.arrange order) := by
  have same := sameColumns_arrange order table
  have columns := Table.columns_arrange_of_map
    (name_derivedColumn kind window unitScale policy table)
    (columns_derive kind window unitScale policy table) order
  cases kind with
  | cumulative =>
      have tables : (deriveRates window unitScale policy (table.arrange order)).table =
          (deriveRates window unitScale policy table).table.arrange order := by
        apply Table.ext_parts
        · rw [Table.index_arrange, Table.index_deriveRates, Table.index_deriveRates,
            same.ratedRows, same.timeAt]
        · refine Eq.trans ?_ columns.symm
          rw [Table.columns_deriveRates, same.ratedRows, same.elapsed]
          rfl
      have stats := same.stats_deriveRates window unitScale policy
      exact congrArg DerivedTable.rates (congr (congrArg RateTable.mk tables) stats)
  | instantaneous =>
      apply congrArg DerivedTable.readings
      apply Table.ext_parts
      · rfl
      · exact columns.symm

/-- A column order can be applied before deriving or to the derived table: both
fail with the same difference between the order and the columns, or give the
same table with the same counts. -/
theorem derive_arrangeUnder_comm (order : List String) (orderPolicy : OrderPolicy)
    (metric : String) (kind : MetricKind) (window : Window) (unitScale : Float)
    (resetPolicy : ResetPolicy) (table : Table Float) :
    let derived := derive kind window unitScale resetPolicy table
    (table.arrangeUnder order orderPolicy metric).map
        (derive kind window unitScale resetPolicy) =
      (derived.table.arrangeUnder order orderPolicy metric).map derived.withTable := by
  intro derived
  have faults : derived.table.orderFault? order metric = table.orderFault? order metric :=
    Table.orderFault?_of_map (name_derivedColumn kind window unitScale resetPolicy table)
      (columns_derive kind window unitScale resetPolicy table) order metric
  have arranged : derive kind window unitScale resetPolicy (table.arrange order) =
      derived.withTable (derived.table.arrange order) :=
    derive_arrange kind window unitScale resetPolicy order table
  cases orderPolicy with
  | append => exact congrArg Except.ok arranged
  | strict =>
      simp only [Table.arrangeUnder, faults]
      cases table.orderFault? order metric with
      | some fault => rfl
      | none => exact congrArg Except.ok arranged

end Stages

end MetricRates
