import MetricRates.Chart.Bands
import MetricRates.Proofs.Table.Positions

/-!
# Bands as sums over rows

The edges of stacked columns come from one running edge, to which the columns are added
one after another.  Each value of an edge is nevertheless a sum over a single row, so a
row is stacked in the same way whatever the other rows hold.
-/

namespace MetricRates.Chart

variable {α : Type} [Scalar α]

/-! ## One row -/

/-- Add a cell to a total; an absent cell adds zero. -/
def addCell (total : α) (cell : Option α) : α :=
  total + cell.getD Scalar.zero

/-- The sum of the first cells of a row, from the left and starting from zero. -/
def rowSum (count : Nat) (cells : List (Option α)) : α :=
  (cells.take count).foldl addCell Scalar.zero

theorem getElem?_stackCells {edge : List α} {cells : List (Option α)}
    (fits : cells.length = edge.length) (row : Nat) :
    (stackCells edge cells)[row]? = edge[row]?.map fun total => addCell total cells[row]?.join := by
  rw [stackCells, List.getElem?_zipWith]
  by_cases inEdge : row < edge.length
  · rw [List.getElem?_eq_getElem inEdge, List.getElem?_eq_getElem (fits ▸ inEdge)]
    rfl
  · rw [List.getElem?_eq_none (Nat.le_of_not_lt inEdge)]
    rfl

/-- Columns that are put on an edge one after another are added to it row by row. -/
theorem getElem?_foldl_stackCells {edge : List α} {columns : List (List (Option α))}
    (fits : ∀ cells ∈ columns, cells.length = edge.length) (row : Nat) :
    (columns.foldl stackCells edge)[row]? =
      edge[row]?.map ((columns.map fun cells => cells[row]?.join).foldl addCell) := by
  induction columns generalizing edge with
  | nil => exact Option.map_id'.symm
  | cons cells columns ih =>
      obtain ⟨here, later⟩ := List.forall_mem_cons.mp fits
      have stacked : (stackCells edge cells).length = edge.length := by simp [here]
      rw [List.foldl_cons, ih fun other listed => (later other listed).trans stacked.symm,
        getElem?_stackCells here, Option.map_map]
      rfl

theorem length_foldl_stackCells {edge : List α} {columns : List (List (Option α))}
    (fits : ∀ cells ∈ columns, cells.length = edge.length) :
    (columns.foldl stackCells edge).length = edge.length := by
  induction columns generalizing edge with
  | nil => rfl
  | cons cells columns ih =>
      obtain ⟨here, later⟩ := List.forall_mem_cons.mp fits
      have stacked : (stackCells edge cells).length = edge.length := by simp [here]
      rw [List.foldl_cons, ih fun other listed => (later other listed).trans stacked.symm, stacked]

/-! ## All edges -/

namespace StackedBands

/-- The value of an edge at a row. -/
def at? (bands : StackedBands α) (edge row : Nat) : Option α :=
  bands.edges[edge]?.bind fun values => values[row]?

theorem xs_ofTable (table : Table α) :
    (ofTable table).xs =
      table.index.map fun time => Scalar.seconds (time.nanosSince (table.timeAt 0)) := by
  obtain ⟨index, columns, rectangular⟩ := table
  cases index <;> rfl

theorem length_edges_ofTable (table : Table α) :
    (ofTable table).edges.length = table.columnCount + 1 := by
  simp [ofTable, Table.columnCount]

/-- The columns up to an edge are as long as the edge that they are put on. -/
theorem fits_take_cells (table : Table α) (edge : Nat) :
    ∀ cells ∈ (table.columns.take edge).map Column.cells,
      cells.length = (List.replicate table.rowCount (Scalar.zero : α)).length := by
  intro cells listed
  obtain ⟨column, taken, rfl⟩ := List.mem_map.mp listed
  rw [List.length_replicate]
  exact table.rectangular column (List.mem_of_mem_take taken)

theorem getElem?_edges_ofTable {table : Table α} {edge : Nat} (inTable : edge ≤ table.columnCount) :
    (ofTable table).edges[edge]? =
      some (((table.columns.take edge).map Column.cells).foldl stackCells
        (List.replicate table.rowCount Scalar.zero)) := by
  have known : edge ≤ (table.columns.map Column.cells).length := by
    rwa [List.length_map]
  rw [ofTable, List.getElem?_scanl, if_pos known, List.map_take]

theorem length_of_mem_edges {table : Table α} {values : List α}
    (listed : values ∈ (ofTable table).edges) : values.length = table.rowCount := by
  obtain ⟨edge, inBounds, rfl⟩ := List.getElem_of_mem listed
  have inTable : edge ≤ table.columnCount := by
    rw [length_edges_ofTable] at inBounds
    exact Nat.le_of_lt_succ inBounds
  have found := getElem?_edges_ofTable inTable
  rw [List.getElem?_eq_getElem inBounds, Option.some.injEq] at found
  rw [found, length_foldl_stackCells (fits_take_cells table edge), List.length_replicate]

/-- The values of an edge are the sums of the rows over the columns below it. -/
theorem at?_ofTable {table : Table α} {edge : Nat} (inTable : edge ≤ table.columnCount)
    (row : Nat) :
    (ofTable table).at? edge row = (table.row? row).map fun given => rowSum edge given.cells := by
  rw [at?, getElem?_edges_ofTable inTable, Option.bind_some,
    getElem?_foldl_stackCells (fits_take_cells table edge), List.getElem?_replicate, Table.row?]
  by_cases inRows : row < table.rowCount
  · have found : table.index[row]? = some table.index[row] := List.getElem?_eq_getElem inRows
    rw [if_pos inRows, found, Option.map_some, Option.map_some, Option.map_some, rowSum,
      ← List.map_take, List.map_map]
    rfl
  · have missing : table.index[row]? = none :=
      List.getElem?_eq_none (Nat.le_of_not_lt inRows)
    rw [if_neg inRows, missing]
    rfl

/-- A row is stacked as it is in the table that has this row alone. -/
theorem at?_ofTable_singleton {table : Table α} {edge : Nat} (inTable : edge ≤ table.columnCount)
    {row : Nat} {given : Row α} (found : table.row? row = some given) :
    (ofTable (.ofRows table.names [given])).at? edge 0 = (ofTable table).at? edge row := by
  have sameWidth : (Table.ofRows table.names [given]).columnCount = table.columnCount := by
    have same := congrArg List.length (Table.names_ofRows table.names [given])
    rwa [Table.names, Table.names, List.length_map, List.length_map] at same
  rw [at?_ofTable (sameWidth ▸ inTable), at?_ofTable inTable, found,
    Table.row?_ofRows_singleton found]

/-- The edges of stacked columns are the running sums of the rows: there is one time for
each row and one edge more than there are columns, with a value for each row.  The lowest
edge is zero.  Any edge has at each row the sum of the cells of that row in the columns
below it, so it is the edge of the table that has this row alone. -/
theorem ofTable_running_sums (table : Table α) :
    (ofTable table).xs =
        table.index.map (fun time => Scalar.seconds (time.nanosSince (table.timeAt 0))) ∧
      (ofTable table).edges.length = table.columnCount + 1 ∧
      (∀ values ∈ (ofTable table).edges, values.length = table.rowCount) ∧
      (ofTable table).edges[0]? = some (List.replicate table.rowCount Scalar.zero) ∧
      ∀ edge ≤ table.columnCount, ∀ row,
        (ofTable table).at? edge row = (table.row? row).map (fun given => rowSum edge given.cells) ∧
        ∀ given, table.row? row = some given →
          (ofTable (.ofRows table.names [given])).at? edge 0 = (ofTable table).at? edge row := by
  constructor
  · exact xs_ofTable table
  constructor
  · exact length_edges_ofTable table
  constructor
  · exact fun values => length_of_mem_edges
  constructor
  · exact getElem?_edges_ofTable (Nat.zero_le _)
  · intro edge inTable row
    exact ⟨at?_ofTable inTable row, fun given => at?_ofTable_singleton inTable⟩

/-- Two columns with absent cells, stacked. -/
example : (ofTable (.ofRows ["a", "b"]
    [⟨.clamp 0, [some 1, none]⟩, ⟨.clamp 1000000000, [some 2, some (-5)]⟩] : Table Rat)) =
      { xs := [0, 1], edges := [[0, 0], [1, 2], [1, -3]] } := by
  decide +kernel

end StackedBands

end MetricRates.Chart
