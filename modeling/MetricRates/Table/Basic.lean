import MetricRates.Error
import MetricRates.Time.Timestamp

/-!
# Tables

A table has one instant for each row and named columns of cells; a cell may be
absent.  Every column is as long as the index.  Names may repeat: a name stands
for the first column that carries it.
-/

namespace MetricRates

open Time

/-- A named column of cells. -/
structure Column (α : Type) where
  name : String
  cells : List (Option α)
  deriving DecidableEq

/-- A rectangular table. -/
structure Table (α : Type) where
  index : List Timestamp
  columns : List (Column α)
  rectangular : ∀ column ∈ columns, column.cells.length = index.length
  deriving DecidableEq

/-- One row of a table: its instant and its cells in column order. -/
structure Row (α : Type) where
  time : Timestamp
  cells : List (Option α)
  deriving DecidableEq

namespace Table

variable {α : Type}

/-- Tables with the same index and the same columns are the same. -/
@[ext]
theorem ext_parts {first second : Table α} (sameIndex : first.index = second.index)
    (sameColumns : first.columns = second.columns) : first = second := by
  cases first
  cases second
  simp_all

/-! ## Parts -/

/-- The names of the columns. -/
def names (table : Table α) : List String :=
  table.columns.map Column.name

/-- The number of rows. -/
def rowCount (table : Table α) : Nat :=
  table.index.length

/-- The number of columns. -/
def columnCount (table : Table α) : Nat :=
  table.columns.length

/-- Whether a table has no rows. -/
def isEmpty (table : Table α) : Bool :=
  table.index.isEmpty

/-- The first column with a name. -/
def column? (table : Table α) (name : String) : Option (Column α) :=
  table.columns.find? fun column => column.name == name

/-- The value in a row and the first column with a name, if it is present. -/
def cell? (table : Table α) (row : Nat) (name : String) : Option α :=
  (table.column? name).bind fun column => column.cells[row]?.join

/-- A row, if the table has it. -/
def row? (table : Table α) (row : Nat) : Option (Row α) :=
  table.index[row]?.map fun time =>
    { time, cells := table.columns.map fun column => column.cells[row]?.join }

/-! ## Building -/

/-- Pair names with columns of cells. -/
def columnsOf (names : List String) (cells : List (List (Option α))) : List (Column α) :=
  List.zipWith Column.mk names cells

/-- A table from an index and columns, if their lengths agree; otherwise the
first column that does not fit is named. -/
def ofColumns (index : List Timestamp) (columns : List (Column α)) :
    Except EngineError (Table α) :=
  match unfit : columns.find? fun column => column.cells.length != index.length with
  | some column =>
      .error (.columnLengthMismatch column.name column.cells.length index.length)
  | none =>
      .ok { index, columns, rectangular := by simpa using unfit }

/-- A table from an index, names and columns of cells, if their shapes
agree. -/
def ofParts (index : List Timestamp) (names : List String)
    (cells : List (List (Option α))) : Except EngineError (Table α) :=
  if names.length = cells.length then ofColumns index (columnsOf names cells)
  else .error (.shapeMismatch names.length cells.length)

/-! ## Cell-wise change -/

/-- Apply a function to every present cell. -/
def mapPresent (f : α → α) (table : Table α) : Table α where
  index := table.index
  columns := table.columns.map fun column =>
    { column with cells := column.cells.map fun cell => cell.map f }
  rectangular := by
    intro column member
    obtain ⟨given, inTable, rfl⟩ := List.mem_map.mp member
    simpa using table.rectangular given inTable

@[simp]
theorem names_mapPresent (f : α → α) (table : Table α) :
    (table.mapPresent f).names = table.names := by
  simp [names, mapPresent, Function.comp_def]

/-- Columns of the right lengths make exactly the table with these parts. -/
theorem ofColumns_eq_ok_iff {index : List Timestamp} {columns : List (Column α)}
    {table : Table α} :
    ofColumns index columns = .ok table ↔ table.index = index ∧ table.columns = columns := by
  constructor
  · intro built
    unfold ofColumns at built
    split at built
    · cases built
    · cases built
      exact ⟨rfl, rfl⟩
  · rintro ⟨rfl, rfl⟩
    unfold ofColumns
    split
    · rename_i column unfit
      have member := List.mem_of_find?_eq_some unfit
      have length := table.rectangular column member
      have := List.find?_some unfit
      simp [length] at this
    · rfl

end Table

end MetricRates
