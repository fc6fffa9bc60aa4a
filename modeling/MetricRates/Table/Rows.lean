import MetricRates.Table.Basic

/-!
# Rows of a table

A table can be seen row by row.  Going from columns to rows and back is one
transposition, which gives as many lists as it is asked for and fills what a
short list lacks with absent cells.
-/

namespace MetricRates

variable {α : Type}

/-- The first `count` cross-sections of some lists of cells. -/
def transpose : Nat → List (List (Option α)) → List (List (Option α))
  | 0, _ => []
  | count + 1, lists =>
      (lists.map fun cells => cells.head?.join) :: transpose count (lists.map List.tail)

@[simp]
theorem length_transpose (count : Nat) (lists : List (List (Option α))) :
    (transpose count lists).length = count := by
  induction count generalizing lists with
  | zero => rfl
  | succ count ih => simp [transpose, ih]

/-- Each cross-section has one cell for each list. -/
theorem length_of_mem_transpose {count : Nat} {lists : List (List (Option α))}
    {crossSection : List (Option α)} (member : crossSection ∈ transpose count lists) :
    crossSection.length = lists.length := by
  induction count generalizing lists with
  | zero => simp [transpose] at member
  | succ count ih =>
      rcases List.mem_cons.mp member with rfl | member
      · simp
      · simpa using ih member

/-- The cross-section at a position holds the cells at that position. -/
theorem getElem?_transpose (count : Nat) (lists : List (List (Option α))) (position : Nat) :
    (transpose count lists)[position]? =
      if position < count then some (lists.map fun cells => cells[position]?.join)
      else none := by
  induction count generalizing lists position with
  | zero => simp [transpose]
  | succ count ih =>
      cases position with
      | zero => simp [transpose, List.head?_eq_getElem?]
      | succ position => simp [transpose, ih, Function.comp_def]

namespace Table

/-- The rows of a table, in index order. -/
def rows (table : Table α) : List (Row α) :=
  List.zipWith Row.mk table.index
    (transpose table.rowCount (table.columns.map Column.cells))

/-- The table with the given column names and rows. -/
def ofRows (names : List String) (rows : List (Row α)) : Table α where
  index := rows.map Row.time
  columns := columnsOf names (transpose names.length (rows.map Row.cells))
  rectangular := by
    intro column member
    obtain ⟨position, inBounds, rfl⟩ := List.getElem_of_mem member
    have cellsMember :
        ((columnsOf names (transpose names.length (rows.map Row.cells)))[position]).cells ∈
          transpose names.length (rows.map Row.cells) := by
      simp only [columnsOf, List.getElem_zipWith]
      exact List.getElem_mem _
    simpa using length_of_mem_transpose cellsMember

@[simp]
theorem length_rows (table : Table α) : table.rows.length = table.rowCount := by
  simp [rows, rowCount]

/-- The rows are those that can be asked for one by one. -/
theorem getElem?_rows (table : Table α) (row : Nat) : table.rows[row]? = table.row? row := by
  simp only [rows, List.getElem?_zipWith, getElem?_transpose, row?, rowCount]
  by_cases inBounds : row < table.index.length
  · simp [inBounds, Function.comp_def]
  · simp [inBounds]

@[simp]
theorem index_ofRows (names : List String) (rows : List (Row α)) :
    (ofRows names rows).index = rows.map Row.time := rfl

@[simp]
theorem names_ofRows (names : List String) (rows : List (Row α)) :
    (ofRows names rows).names = names := by
  refine List.ext_getElem ?_ fun position _ _ => ?_
  · simp [Table.names, ofRows, columnsOf]
  · simp [Table.names, ofRows, columnsOf]

end Table

end MetricRates
