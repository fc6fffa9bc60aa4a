import MetricRates.Table.Basic

/-!
# The shape of a table

An index, names and columns of cells are the parts of a table exactly when there
are as many columns as names and every column is as long as the index.
-/

namespace MetricRates

open Time

variable {α : Type}

/-- Parts of a table that fit together. -/
structure Rectangular (index : List Timestamp) (names : List String)
    (cells : List (List (Option α))) : Prop where
  width : cells.length = names.length
  height : ∀ column ∈ cells, column.length = index.length

namespace Table

/-- The cells of the columns. -/
def cells (table : Table α) : List (List (Option α)) :=
  table.columns.map Column.cells

theorem rectangular_parts (table : Table α) :
    Rectangular table.index table.names table.cells where
  width := by simp [cells, names]
  height := by
    intro column member
    obtain ⟨given, inTable, rfl⟩ := List.mem_map.mp member
    exact table.rectangular given inTable

theorem columnsOf_names_cells (table : Table α) :
    columnsOf table.names table.cells = table.columns := by
  simp [columnsOf, names, cells, List.zipWith_map_left, List.zipWith_map_right, List.zipWith_self]

section Columns

variable {names : List String} {cells : List (List (Option α))}
  (width : names.length = cells.length)

include width

theorem map_name_columnsOf : (columnsOf names cells).map Column.name = names :=
  List.ext_getElem (by simp [columnsOf, width]) fun position _ _ => by simp [columnsOf]

theorem map_cells_columnsOf : (columnsOf names cells).map Column.cells = cells :=
  List.ext_getElem (by simp [columnsOf, width]) fun position _ _ => by simp [columnsOf]

end Columns

/-- A table is built from parts exactly when it has just these parts. -/
theorem ofParts_eq_ok_iff {index : List Timestamp} {names : List String}
    {cells : List (List (Option α))} {table : Table α} :
    ofParts index names cells = .ok table ↔
      table.index = index ∧ table.names = names ∧ table.cells = cells := by
  constructor
  · intro built
    unfold ofParts at built
    split at built
    · rename_i width
      obtain ⟨sameIndex, columns⟩ := ofColumns_eq_ok_iff.mp built
      refine ⟨sameIndex, ?_, ?_⟩
      · rw [Table.names, columns, map_name_columnsOf width]
      · rw [Table.cells, columns, map_cells_columnsOf width]
    · cases built
  · rintro ⟨rfl, rfl, rfl⟩
    rw [ofParts, if_pos (rectangular_parts table).width.symm, ofColumns_eq_ok_iff,
      columnsOf_names_cells]
    exact ⟨rfl, rfl⟩

/-- Parts make a table exactly when they fit together. -/
theorem exists_ofParts_iff {index : List Timestamp} {names : List String}
    {cells : List (List (Option α))} :
    (∃ table, ofParts index names cells = .ok table) ↔ Rectangular index names cells := by
  constructor
  · rintro ⟨table, built⟩
    obtain ⟨rfl, rfl, rfl⟩ := ofParts_eq_ok_iff.mp built
    exact rectangular_parts table
  · rintro ⟨width, height⟩
    have fits : ∀ column ∈ columnsOf names cells, column.cells.length = index.length := by
      intro column member
      obtain ⟨position, inBounds, rfl⟩ := List.getElem_of_mem member
      simp only [columnsOf, List.getElem_zipWith]
      exact height _ (List.getElem_mem _)
    refine ⟨⟨index, columnsOf names cells, fits⟩, ?_⟩
    rw [ofParts, if_pos width.symm]
    exact ofColumns_eq_ok_iff.mpr ⟨rfl, rfl⟩

end Table

end MetricRates
