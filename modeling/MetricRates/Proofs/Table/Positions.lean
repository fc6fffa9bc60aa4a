import MetricRates.Table.Rows

/-!
# Tables by position

A table is known by what stands at each of its positions.  Its rows are the
rows at the positions below its row count, and a table whose rows are given
position by position has its columns given in the same way.
-/

namespace MetricRates

open Time

variable {α : Type}

/-- The value of a column in a row, if it is present. -/
def Column.value? (column : Column α) (row : Nat) : Option α :=
  column.cells[row]?.join

namespace Table

/-- The instant of a row; beyond the last row it is the start of 1970. -/
def timeAt (table : Table α) (row : Nat) : Timestamp :=
  table.index[row]?.getD default

/-- The row at a position. -/
def rowAt (table : Table α) (row : Nat) : Row α where
  time := table.timeAt row
  cells := table.columns.map fun column => column.value? row

theorem row?_eq_some_rowAt {table : Table α} {row : Nat} (inTable : row < table.rowCount) :
    table.row? row = some (table.rowAt row) := by
  have found : table.index[row]? = some table.index[row] := List.getElem?_eq_getElem inTable
  simp [row?, rowAt, timeAt, Column.value?, found]

/-- The rows of a table are the rows at the positions below its row count. -/
theorem rows_eq_map_rowAt (table : Table α) :
    table.rows = (List.range table.rowCount).map table.rowAt := by
  apply List.ext_getElem?
  intro row
  rw [getElem?_rows, List.getElem?_map]
  by_cases inTable : row < table.rowCount
  · rw [row?_eq_some_rowAt inTable, List.getElem?_range inTable]
    rfl
  · have beyond : table.rowCount ≤ row := Nat.le_of_not_lt inTable
    have noTime : table.index[row]? = none := List.getElem?_eq_none beyond
    have noPosition : (List.range table.rowCount)[row]? = none :=
      List.getElem?_eq_none (by simpa using beyond)
    rw [noPosition, row?, noTime]
    rfl

/-- Rows that are given column by column are columns that are given row by
row. -/
theorem transpose_map {β γ : Type} (cell : β → γ → Option α) (rows : List β)
    (columns : List γ) :
    transpose columns.length (rows.map fun row => columns.map (cell row)) =
      columns.map fun column => rows.map fun row => cell row column := by
  apply List.ext_getElem?
  intro position
  rw [getElem?_transpose, List.getElem?_map]
  by_cases inRows : position < columns.length
  · rw [if_pos inRows, List.getElem?_eq_getElem inRows]
    simp [inRows, Function.comp_def]
  · rw [if_neg inRows, List.getElem?_eq_none (Nat.le_of_not_lt inRows)]
    rfl

/-- Transposing twice changes nothing about lists that are as long as they should be. -/
theorem transpose_transpose {width : Nat} {lists : List (List (Option α))}
    (fits : ∀ cells ∈ lists, cells.length = width) :
    transpose lists.length (transpose width lists) = lists := by
  apply List.ext_getElem?
  intro row
  rw [getElem?_transpose]
  by_cases inRows : row < lists.length
  · rw [if_pos inRows, List.getElem?_eq_getElem inRows, Option.some_inj]
    apply List.ext_getElem?
    intro position
    have size := fits _ (List.getElem_mem inRows)
    rw [List.getElem?_map, getElem?_transpose]
    by_cases inWidth : position < width
    · simp [inWidth, inRows, size]
    · rw [if_neg inWidth, List.getElem?_eq_none (by omega)]
      rfl
  · rw [if_neg inRows, List.getElem?_eq_none (Nat.le_of_not_lt inRows)]

/-- The rows of a table that is given by rows. -/
theorem rows_ofRows {names : List String} {rows : List (Row α)}
    (fits : ∀ row ∈ rows, row.cells.length = names.length) : (ofRows names rows).rows = rows := by
  have height : (ofRows names rows).rowCount = (rows.map Row.cells).length := by
    simp [rowCount]
  have cells : (ofRows names rows).columns.map Column.cells =
      transpose names.length (rows.map Row.cells) := by
    refine List.ext_getElem (by simp [ofRows, columnsOf]) fun position _ _ => ?_
    simp [ofRows, columnsOf]
  rw [Table.rows, height, cells, transpose_transpose (by simpa using fits), index_ofRows,
    List.zipWith_map_left, List.zipWith_map_right, List.zipWith_self]
  exact List.map_id rows

/-- A row of a table as a table by itself. -/
theorem row?_ofRows_singleton {table : Table α} {row : Nat} {given : Row α}
    (found : table.row? row = some given) : (ofRows table.names [given]).row? 0 = some given := by
  have width : given.cells.length = table.names.length := by
    obtain ⟨time, -, rfl⟩ := Option.map_eq_some_iff.mp found
    simp [names]
  rw [← getElem?_rows, rows_ofRows (by simpa using width)]
  rfl

/-- A table whose rows give each column of another table a new cell has that
table's columns with the new cells. -/
theorem columns_ofRows_map {β : Type} (table : Table α) (time : β → Timestamp)
    (cell : β → Column α → Option α) (positions : List β) :
    (ofRows table.names (positions.map fun position =>
        { time := time position, cells := table.columns.map (cell position) })).columns =
      table.columns.map fun column =>
        { name := column.name, cells := positions.map fun position => cell position column } := by
  have cellsOfRows : (positions.map fun position =>
      ({ time := time position, cells := table.columns.map (cell position) } : Row α)).map
        Row.cells = positions.map fun position => table.columns.map (cell position) := by
    simp [Function.comp_def]
  have width : table.names.length = table.columns.length := by simp [names]
  simp only [ofRows, cellsOfRows, width, transpose_map]
  simp [columnsOf, names, List.zipWith_map_left, List.zipWith_map_right, List.zipWith_self]

end Table

end MetricRates
