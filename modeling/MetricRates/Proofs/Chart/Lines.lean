import MetricRates.Chart.Series
import MetricRates.Proofs.Table.Positions
import MetricRates.Proofs.Time.Order

/-!
# Lines since a shared origin

Tables on a shared time axis are drawn from the earliest first row of any of them.  A line
then has exactly one point for each present cell of its column, and its time is a function
of the instant of the row alone.
-/

namespace MetricRates.Chart

open Time

variable {α : Type}

/-! ## Choices over a list -/

/-- A choice over a list has a property exactly when all candidates have it, if a choice of
two has it exactly when both have it. -/
theorem foldl_choice_iff {choice : α → α → α} {p : α → Prop}
    (ofTwo : ∀ a b, p (choice a b) ↔ p a ∧ p b) {candidates : List α}
    {first : α} :
    p (candidates.foldl choice first) ↔ p first ∧ ∀ candidate ∈ candidates, p candidate := by
  induction candidates generalizing first with
  | nil => simp
  | cons second candidates ih =>
      rw [List.foldl_cons, ih, ofTwo, List.forall_mem_cons, and_assoc]

/-- A choice over a list is one of the candidates, if a choice of two is one of the two. -/
theorem foldl_choice_mem {choice : α → α → α} (ofTwo : ∀ a b, choice a b = a ∨ choice a b = b)
    (first : α) (candidates : List α) : candidates.foldl choice first ∈ first :: candidates := by
  apply List.foldlRecOn candidates choice List.mem_cons_self
  intro chosen listed candidate candidateListed
  rcases ofTwo chosen candidate with same | same
  · rwa [same]
  · rw [same]
    exact List.mem_cons_of_mem first candidateListed

/-! ## The shared origin -/

theorem earlier_eq_or (a b : Timestamp) : earlier a b = a ∨ earlier a b = b := by
  rw [earlier]
  split
  · exact .inr rfl
  · exact .inl rfl

theorem le_earlier_iff {bound a b : Timestamp} : bound ≤ earlier a b ↔ bound ≤ a ∧ bound ≤ b := by
  simp only [earlier, Timestamp.le_def, Timestamp.lt_def]
  split <;> omega

/-- An instant is the origin of tables that share a time axis if it is the first instant of
one of them and none of them starts before it. -/
structure IsOrigin (tables : List (Table α)) (origin : Timestamp) : Prop where
  starts : ∃ table ∈ tables, table.index.head? = some origin
  earliest : ∀ table ∈ tables, ∀ first ∈ table.index.head?, origin ≤ first

theorem isEmpty_of_sharedOrigin?_eq_none {tables : List (Table α)}
    (none : sharedOrigin? tables = none) {table : Table α} (listed : table ∈ tables) :
    table.isEmpty := by
  unfold sharedOrigin? at none
  split at none
  · rename_i noFirst
    have absent := List.filterMap_eq_nil_iff.mp noFirst table listed
    rw [Table.isEmpty, List.head?_eq_none_iff.mp absent]
    rfl
  · cases none

theorem isOrigin_of_sharedOrigin?_eq_some {tables : List (Table α)} {origin : Timestamp}
    (found : sharedOrigin? tables = some origin) : IsOrigin tables origin := by
  unfold sharedOrigin? at found
  split at found
  · cases found
  · rename_i first rest firsts
    cases found
    have mem_firsts : ∀ time, time ∈ first :: rest ↔
        ∃ table ∈ tables, table.index.head? = some time := by
      intro time
      rw [← firsts, List.mem_filterMap]
    constructor
    · exact (mem_firsts _).mp (foldl_choice_mem earlier_eq_or first rest)
    · intro table listed time starts
      have candidate := (mem_firsts time).mpr ⟨table, listed, starts⟩
      have bounds := foldl_choice_iff (fun _ _ => le_earlier_iff) |>.mp
        (Timestamp.le_refl (rest.foldl earlier first))
      exact List.forall_mem_cons.mpr bounds time candidate

/-- In tables whose instants never go back, no row lies before the origin. -/
theorem IsOrigin.le {tables : List (Table α)} {origin : Timestamp}
    (isOrigin : IsOrigin tables origin) {table : Table α} (listed : table ∈ tables)
    (ordered : table.index.Pairwise (· ≤ ·)) {time : Timestamp} (inTable : time ∈ table.index) :
    origin ≤ time := by
  have starts := isOrigin.earliest table listed
  cases index : table.index with
  | nil => simp [index] at inTable
  | cons first rest =>
      rw [index] at starts ordered inTable
      have fromStart : origin ≤ first := starts first rfl
      rcases List.mem_cons.mp inTable with rfl | later
      · exact fromStart
      · exact Timestamp.le_trans fromStart (List.rel_of_pairwise_cons ordered later)

/-! ## Points -/

/-- The points of a column: one for each present cell, in row order, at the seconds that
belong to the instant of its row. -/
def presentPoints (seconds : Timestamp → α) (table : Table α) (column : Column α) :
    List (α × α) :=
  (List.range table.rowCount).filterMap fun row =>
    (column.value? row).map fun y => (seconds (table.timeAt row), y)

theorem mem_presentPoints {seconds : Timestamp → α} {table : Table α} {column : Column α}
    {point : α × α} (listed : point ∈ presentPoints seconds table column) :
    ∃ time ∈ table.index, point.1 = seconds time := by
  obtain ⟨row, inRange, made⟩ := List.mem_filterMap.mp listed
  obtain ⟨y, -, rfl⟩ := Option.map_eq_some_iff.mp made
  have inTable : row < table.index.length := List.mem_range.mp inRange
  have found : table.index[row]? = some table.index[row] := List.getElem?_eq_getElem inTable
  exact ⟨table.index[row], List.getElem_mem inTable, by rw [Table.timeAt, found]; rfl⟩

/-- The lines of a table, one for each column. -/
def linesOf (seconds : Timestamp → α) (table : Table α) : List (Series α) :=
  table.columns.map fun column =>
    { name := column.name, points := presentPoints seconds table column }

variable [Scalar α]

theorem zip_secondsFrom (origin : Timestamp) {table : Table α} {column : Column α}
    (fits : column.cells.length = table.rowCount) :
    (secondsFrom origin table).zip column.cells = (List.range table.rowCount).map fun row =>
      (Scalar.seconds ((table.timeAt row).nanosSince origin), column.value? row) := by
  have height : (secondsFrom origin table).length = table.rowCount := List.length_map ..
  apply List.ext_getElem
  · simp [height, fits]
  · intro row inZip _
    have inTable : row < table.index.length := by
      simpa [height, fits, Table.rowCount] using inZip
    simp [secondsFrom, Table.timeAt, Column.value?, inTable, fits, Table.rowCount]

theorem pointsOf_secondsFrom (origin : Timestamp) {table : Table α} {column : Column α}
    (fits : column.cells.length = table.rowCount) :
    pointsOf (secondsFrom origin table) column.cells =
      presentPoints (fun time => Scalar.seconds (time.nanosSince origin)) table column := by
  rw [pointsOf, zip_secondsFrom origin fits, List.filterMap_map]
  rfl

theorem seriesFrom_eq_linesOf (origin : Timestamp) (table : Table α) :
    seriesFrom origin table =
      linesOf (fun time => Scalar.seconds (time.nanosSince origin)) table := by
  apply List.map_congr_left
  intro column listed
  rw [pointsOf_secondsFrom origin (table.rectangular column listed)]

/-- Tables that share a time axis have no lines if none of them has a row; otherwise each
has a line for each of its columns, with times since the shared origin. -/
theorem panelSeries_cases (tables : List (Table α)) :
    ((∀ table ∈ tables, table.isEmpty) ∧ panelSeries tables = tables.map fun _ => []) ∨
      ∃ origin, IsOrigin tables origin ∧
        panelSeries tables =
          tables.map (linesOf fun time => Scalar.seconds (time.nanosSince origin)) := by
  cases shared : sharedOrigin? tables with
  | none =>
      left
      constructor
      · intro table listed
        exact isEmpty_of_sharedOrigin?_eq_none shared listed
      · rw [panelSeries, shared]
  | some origin =>
      right
      exists origin
      constructor
      · exact isOrigin_of_sharedOrigin?_eq_some shared
      · simp only [panelSeries, shared]
        exact List.map_congr_left fun table _ => seriesFrom_eq_linesOf origin table

end MetricRates.Chart
