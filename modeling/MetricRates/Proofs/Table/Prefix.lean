import MetricRates.Proofs.Table.Arrangement
import MetricRates.Table.Rows

/-!
# The first rows of a table

A table can be cut off after some rows.  Arranging columns, changing cells and
going over to rows can each be done before or after cutting.
-/

namespace MetricRates

variable {α : Type}

/-- The first cells of a column. -/
def Column.take (count : Nat) (column : Column α) : Column α :=
  { column with cells := column.cells.take count }

namespace Table

/-- The first rows of a table. -/
def takeRows (count : Nat) (table : Table α) : Table α where
  index := table.index.take count
  columns := table.columns.map (Column.take count)
  rectangular := by
    intro column member
    obtain ⟨given, inTable, rfl⟩ := List.mem_map.mp member
    simp [Column.take, table.rectangular given inTable]

@[simp]
theorem index_takeRows (count : Nat) (table : Table α) :
    (table.takeRows count).index = table.index.take count := rfl

@[simp]
theorem columns_takeRows (count : Nat) (table : Table α) :
    (table.takeRows count).columns = table.columns.map (Column.take count) := rfl

@[simp]
theorem names_takeRows (count : Nat) (table : Table α) :
    (table.takeRows count).names = table.names := by
  simp [names, Column.take, Function.comp_def]

@[simp]
theorem rowCount_takeRows (count : Nat) (table : Table α) :
    (table.takeRows count).rowCount = min count table.rowCount :=
  List.length_take

/-- Cutting off at the number of rows that are left changes nothing. -/
theorem takeRows_min (count : Nat) (table : Table α) :
    table.takeRows (min count table.rowCount) = table.takeRows count := by
  apply ext_parts
  · simp [rowCount, List.take_eq_take_min]
  · apply List.map_congr_left
    intro column member
    simp only [Column.take, rowCount, ← table.rectangular column member]
    rw [← List.take_eq_take_min]

/-! ## Rows -/

theorem row?_takeRows (count row : Nat) (table : Table α) :
    (table.takeRows count).row? row = if row < count then table.row? row else none := by
  simp only [row?, index_takeRows, columns_takeRows, List.getElem?_take]
  split
  · rename_i kept
    simp [Column.take, kept, Function.comp_def]
  · rfl

/-- The rows of the first rows of a table. -/
theorem rows_takeRows (count : Nat) (table : Table α) :
    (table.takeRows count).rows = table.rows.take count := by
  apply List.ext_getElem?
  intro row
  rw [getElem?_rows, row?_takeRows, List.getElem?_take, getElem?_rows]

theorem transpose_take (width count : Nat) (lists : List (List (Option α))) :
    transpose width (lists.take count) = (transpose width lists).map (List.take count) := by
  apply List.ext_getElem?
  intro position
  rw [List.getElem?_map, getElem?_transpose, getElem?_transpose]
  split
  · rw [List.map_take]
    rfl
  · rfl

/-- A table of the first of some rows. -/
theorem ofRows_take (names : List String) (rows : List (Row α)) (count : Nat) :
    ofRows names (rows.take count) = (ofRows names rows).takeRows count := by
  apply ext_parts
  · exact List.map_take
  · simp only [ofRows, columns_takeRows, columnsOf, List.map_take, transpose_take,
      List.zipWith_map_right, List.map_zipWith]
    rfl

/-! ## Columns -/

/-- The first rows of a table are arranged as the whole table is. -/
theorem changesColumns_takeRows (count : Nat) :
    ChangesColumns (takeRows (α := α) count) (Column.take count) where
  name _ := rfl
  columns := columns_takeRows count
  index _ _ same := congrArg (List.take count) same

theorem mapPresent_takeRows (f : α → α) (count : Nat) (table : Table α) :
    (table.takeRows count).mapPresent f = (table.mapPresent f).takeRows count := by
  apply ext_parts
  · rfl
  · simp [mapPresent, Column.take, List.map_take, Function.comp_def]

end Table

end MetricRates
