import Mathlib.Data.List.Nodup
import MetricRates.Proofs.Table.OrderFault

/-!
# Arranged columns by position

Arranging takes each position of a column once.  The labels of an order that name a
column take the first positions of their names, in the order of listing, and all other
positions follow in ascending order.  Columns that are arranged already stay where they
are when the same order arranges them again.
-/

namespace MetricRates

variable {α : Type}

/-! ## Positions -/

/-- How an order arranges the positions of some names: `placed` are the first positions
of the listed labels that are names, each label once and in the order of listing, and
`left` are all other positions in ascending order. -/
structure ArrangesPositions (order names : List String) (placed left : List Nat) : Prop where
  placed_names : placed.map (names[·]?) = (order.eraseDups.filter (· ∈ names)).map some
  placed_first : ∀ position ∈ placed, ∀ earlier < position, names[earlier]? ≠ names[position]?
  mem_left : ∀ position, position ∈ left ↔ position < names.length ∧ position ∉ placed
  left_ascending : left.Pairwise (· < ·)

/-- The positions that some labels take. -/
def placedPositions (labels names : List String) : List Nat :=
  labels.filterMap fun label => names.idxOf? label

/-- The positions that are left over. -/
def leftPositions (labels names : List String) : List Nat :=
  (List.range names.length).filter (· ∉ placedPositions labels names)

theorem mem_placedPositions {labels names : List String} {position : Nat} :
    position ∈ placedPositions labels names ↔
      ∃ label ∈ labels, names.idxOf? label = some position :=
  List.mem_filterMap

theorem map_placedPositions (labels names : List String) :
    (placedPositions labels names).map (names[·]?) = (labels.filter (· ∈ names)).map some := by
  induction labels with
  | nil => rfl
  | cons label labels ih =>
      cases found : names.idxOf? label with
      | none =>
          have absent : label ∉ names := List.idxOf?_eq_none_iff.mp found
          simpa [placedPositions, found, absent] using ih
      | some position =>
          obtain ⟨inNames, named, -⟩ := List.idxOf?_eq_some_iff.mp found
          have listed : label ∈ names := named ▸ List.getElem_mem inNames
          simpa [placedPositions, found, listed, inNames, named] using ih

theorem arrangesPositions (order names : List String) :
    ArrangesPositions order names (placedPositions order.eraseDups names)
      (leftPositions order.eraseDups names) where
  placed_names := map_placedPositions _ _
  placed_first := by
    intro position placed earlier before
    obtain ⟨label, -, found⟩ := mem_placedPositions.mp placed
    obtain ⟨inNames, named, first⟩ := List.idxOf?_eq_some_iff.mp found
    have differs := first earlier before
    rw [List.getElem?_eq_getElem inNames, List.getElem?_eq_getElem (by omega), named]
    exact fun same => differs (Option.some.inj same)
  mem_left := by simp [leftPositions]
  left_ascending := List.pairwise_lt_range.filter _

/-- A label takes the first of two columns of its name; the second one stays among the
others. -/
example :
    placedPositions ["idle", "user"] ["system", "user", "idle", "user"] ++
      leftPositions ["idle", "user"] ["system", "user", "idle", "user"] = [2, 1, 0, 3] := by
  decide

/-! ## Columns by position -/

theorem firstNamed?_eq_some_iff {columns : List (Column α)} {label : String}
    {column : Column α} :
    firstNamed? columns label = some column ↔
      ∃ position, (columns.map Column.name).idxOf? label = some position ∧
        columns[position]? = some column := by
  induction columns with
  | nil => simp [firstNamed?]
  | cons head rest ih =>
      rw [List.map_cons, List.idxOf?_cons]
      by_cases same : head.name = label
      · subst same
        simp [firstNamed?_cons_self]
      · rw [firstNamed?_cons_of_ne rest same, ih, if_neg (by simpa using same)]
        simp

/-- The placed columns are those at the placed positions. -/
theorem map_placedColumns (labels : List String) (columns : List (Column α)) :
    (placedColumns labels columns).map some =
      (placedPositions labels (columns.map Column.name)).map (columns[·]?) := by
  induction labels with
  | nil => rfl
  | cons label labels ih =>
      cases found : firstNamed? columns label with
      | none =>
          have absent : (columns.map Column.name).idxOf? label = none :=
            List.idxOf?_eq_none_iff.mpr (isNone_firstNamed?_iff.mp (by simp [found]))
          simpa [placedColumns, placedPositions, found, absent] using ih
      | some column =>
          obtain ⟨position, first, inColumns⟩ := firstNamed?_eq_some_iff.mp found
          simpa [placedColumns, placedPositions, found, first, inColumns] using ih

theorem leftPositions_cons {labels : List String} (distinct : labels.Nodup) (name : String)
    (names : List String) :
    leftPositions labels (name :: names) =
      (if name ∈ labels then [] else [0]) ++
        (leftPositions (labels.erase name) names).map (· + 1) := by
  have first : 0 ∈ placedPositions labels (name :: names) ↔ name ∈ labels := by
    simp [mem_placedPositions, List.idxOf?_cons]
  have later (position : Nat) : position + 1 ∈ placedPositions labels (name :: names) ↔
      position ∈ placedPositions (labels.erase name) names := by
    simp only [mem_placedPositions, List.idxOf?_cons, distinct.mem_erase_iff]
    refine exists_congr fun label => ?_
    by_cases same : name = label
    · simp [same]
    · simp [same, Ne.symm same]
  rw [leftPositions, List.length_cons, List.range_succ_eq_map, List.filter_cons,
    List.filter_map]
  simp only [first, Function.comp_def, later]
  by_cases listed : name ∈ labels <;> simp [listed, leftPositions]

/-- The columns that are left over are those at the positions that are left over. -/
theorem map_leftColumns {labels : List String} (distinct : labels.Nodup)
    (columns : List (Column α)) :
    (leftColumns labels columns).map some =
      (leftPositions labels (columns.map Column.name)).map (columns[·]?) := by
  induction columns generalizing labels with
  | nil => rfl
  | cons column rest ih =>
      have shifted : (leftPositions (labels.erase column.name) (rest.map Column.name)).map
            (fun position => (column :: rest)[position + 1]?) =
          (leftColumns (labels.erase column.name) rest).map some :=
        (ih (distinct.erase column.name)).symm
      rw [List.map_cons, leftPositions_cons distinct, List.map_append, List.map_map,
        Function.comp_def, shifted, leftColumns]
      by_cases listed : column.name ∈ labels
      · simp [listed]
      · simp [listed, List.erase_of_not_mem listed]

/-! ## Arranging again -/

/-- Columns that no label names are all left over. -/
theorem leftColumns_eq_self {labels : List String} {columns : List (Column α)}
    (unlisted : ∀ column ∈ columns, column.name ∉ labels) :
    leftColumns labels columns = columns := by
  induction columns with
  | nil => rfl
  | cons column rest ih =>
      obtain ⟨first, others⟩ := List.forall_mem_cons.mp unlisted
      rw [leftColumns, if_neg first, ih others]

/-- Columns whose names are listed, each once, are taken before the others. -/
theorem leftColumns_append {labels : List String} {placed : List (Column α)}
    (distinct : (placed.map Column.name).Nodup)
    (listed : ∀ column ∈ placed, column.name ∈ labels) (columns : List (Column α)) :
    leftColumns labels (placed ++ columns) =
      leftColumns (labels.diff (placed.map Column.name)) columns := by
  induction placed generalizing labels with
  | nil => rfl
  | cons column placed ih =>
      obtain ⟨alone, distinct⟩ := List.nodup_cons.mp distinct
      obtain ⟨first, others⟩ := List.forall_mem_cons.mp listed
      have still : ∀ other ∈ placed, other.name ∈ labels.erase column.name := by
        intro other member
        have differs : other.name ≠ column.name := fun same =>
          alone (same ▸ List.mem_map_of_mem member)
        exact (List.mem_erase_of_ne differs).mpr (others other member)
      rw [List.cons_append, leftColumns, if_pos first, ih distinct still, List.map_cons,
        List.diff_cons]

theorem name_of_firstNamed? {columns : List (Column α)} {label : String} {column : Column α}
    (found : firstNamed? columns label = some column) : column.name = label :=
  beq_iff_eq.mp (List.find?_eq_some_iff_append.mp found).1

/-- The first column of a name is still the first one among the columns that labels have
taken, if the name is one of these labels. -/
theorem firstNamed?_placedColumns {labels : List String} (columns : List (Column α))
    {label : String} (listed : label ∈ labels) :
    firstNamed? (placedColumns labels columns) label = firstNamed? columns label := by
  have takes (other : String) :
      (firstNamed? columns other).any (fun column => column.name == label) = true ↔
        other = label ∧ (firstNamed? columns label).isSome := by
    cases found : firstNamed? columns other with
    | none =>
        simp only [Option.any_none, Bool.false_eq_true, false_iff, not_and]
        rintro rfl
        simp [found]
    | some column =>
        have named := name_of_firstNamed? found
        subst named
        simp only [Option.any_some, beq_iff_eq]
        constructor
        · rintro rfl
          exact ⟨rfl, by simp [found]⟩
        · exact And.left
  rw [placedColumns, firstNamed?, List.find?_filterMap]
  cases found : labels.find? _ with
  | some other =>
      obtain ⟨rfl, -⟩ := (takes other).mp (List.find?_eq_some_iff_append.mp found).1
      rfl
  | none =>
      have untaken := (not_congr (takes label)).mp (List.find?_eq_none.mp found label listed)
      cases first : firstNamed? columns label with
      | none => rfl
      | some column => exact absurd ⟨rfl, by simp [first]⟩ untaken

/-- Arranging once more takes the same columns. -/
theorem placedColumns_arranged (labels : List String) (columns : List (Column α)) :
    placedColumns labels (placedColumns labels columns ++ leftColumns labels columns) =
      placedColumns labels columns := by
  refine List.filterMap_congr fun label listed => ?_
  rw [firstNamed?, List.find?_append]
  change (firstNamed? _ label).or (firstNamed? _ label) = _
  rw [firstNamed?_placedColumns columns listed]
  cases found : firstNamed? columns label with
  | some column => rfl
  | none =>
      refine List.find?_eq_none.mpr fun column member => ?_
      exact List.find?_eq_none.mp found column (mem_of_mem_leftColumns member)

theorem map_name_placedColumns (labels : List String) (columns : List (Column α)) :
    (placedColumns labels columns).map Column.name =
      labels.filter (· ∈ columns.map Column.name) := by
  have positions := congrArg (List.map (Option.map Column.name)) (map_placedColumns labels columns)
  have names := map_placedPositions labels (columns.map Column.name)
  simp only [List.map_map, Function.comp_def, List.getElem?_map, Option.map_some] at positions names
  apply List.map_injective_iff.mpr fun _ _ => Option.some.inj
  rw [List.map_map, Function.comp_def, positions, names]

/-- Arranging once more leaves the same columns over. -/
theorem leftColumns_arranged {labels : List String} (distinct : labels.Nodup)
    (columns : List (Column α)) :
    leftColumns labels (placedColumns labels columns ++ leftColumns labels columns) =
      leftColumns labels columns := by
  have names := map_name_placedColumns labels columns
  have once : ((placedColumns labels columns).map Column.name).Nodup := by
    rw [names]
    exact distinct.filter _
  have listed : ∀ column ∈ placedColumns labels columns, column.name ∈ labels := by
    intro column member
    have named := List.mem_map_of_mem (f := Column.name) member
    rw [names] at named
    exact (List.mem_filter.mp named).1
  rw [leftColumns_append once listed]
  refine leftColumns_eq_self fun column member still => ?_
  -- A label that took no column names none.
  rw [List.Nodup.mem_sdiff_iff distinct, names, List.mem_filter] at still
  have named := List.mem_map_of_mem (f := Column.name) (mem_of_mem_leftColumns member)
  exact still.2 ⟨still.1, by simpa using named⟩

namespace Table

/-- Arranging a table again by the same order changes nothing. -/
theorem arrange_arrange (order : List String) (table : Table α) :
    (table.arrange order).arrange order = table.arrange order := by
  apply ext_parts
  · rfl
  · have distinct := nodup_eraseDups order
    simp only [arrange, placedColumns_arranged, leftColumns_arranged distinct]

/-- The columns of an arranged table are those at the placed positions and then those at the
positions that are left over. -/
theorem columns_arrange_positions (order : List String) (table : Table α) :
    ∃ placed left, ArrangesPositions order table.names placed left ∧
      (table.arrange order).columns.map some = (placed ++ left).map (table.columns[·]?) := by
  refine ⟨_, _, arrangesPositions order table.names, ?_⟩
  rw [List.map_append, arrange, List.map_append, map_placedColumns,
    map_leftColumns (nodup_eraseDups order)]
  rfl

/-! ## Policies -/

section Strict

variable {order : List String} {metric : String} {table : Table α}

theorem arrangeUnder_strict_eq_ok_iff {result : Table α} :
    table.arrangeUnder order .strict metric = .ok result ↔
      table.orderFault? order metric = none ∧ result = table.arrange order := by
  cases fault : table.orderFault? order metric <;> simp [arrangeUnder, fault, eq_comm]

theorem arrangeUnder_strict_eq_error_iff {cause : EngineError} :
    table.arrangeUnder order .strict metric = .error cause ↔
      table.orderFault? order metric = some cause := by
  cases fault : table.orderFault? order metric <;> simp [arrangeUnder, fault]

end Strict

/-- Appending arranges any table: the index stays, every column is kept, the listed labels
take the first columns of their names in the order of listing, the other columns follow in
their own order, and arranging again changes nothing.  The strict policy gives the same
table or none.  Where no name repeats, it accepts exactly the orders that list the names,
and refuses any other for its first difference from them. -/
theorem arrangeUnder_permutes_columns (order : List String) (metric : String)
    (table : Table α) :
    (∃ arranged, table.arrangeUnder order .append metric = .ok arranged ∧
        arranged.index = table.index ∧
        arranged.columns.Perm table.columns ∧
        (∃ placed left, ArrangesPositions order table.names placed left ∧
          arranged.columns.map some = (placed ++ left).map (table.columns[·]?)) ∧
        arranged.arrangeUnder order .append metric = .ok arranged ∧
        ∀ result, table.arrangeUnder order .strict metric = .ok result → result = arranged) ∧
      (table.names.Nodup →
        ((∃ result, table.arrangeUnder order .strict metric = .ok result) ↔
          ∀ label, label ∈ order ↔ label ∈ table.names) ∧
        ∀ cause, table.arrangeUnder order .strict metric = .error cause ↔
          FirstDifference order table.names metric cause) := by
  constructor
  · refine ⟨table.arrange order, arrangeUnder_append .., rfl, columns_arrange_perm order table,
      columns_arrange_positions order table, ?_, ?_⟩
    · rw [arrangeUnder_append, arrange_arrange]
    · exact fun result accepted => (arrangeUnder_strict_eq_ok_iff.mp accepted).2
  · intro distinct
    constructor
    · have agrees := @orderFault?_eq_none_iff α order metric table distinct
      simp only [← agrees, arrangeUnder_strict_eq_ok_iff, exists_and_left, exists_eq, and_true]
    · intro cause
      rw [arrangeUnder_strict_eq_error_iff, orderFault?_eq_some_iff_firstDifference distinct]

/-- One order lists a label twice and another one that no column has: appending skips it,
the strict policy tells it.  The other order lists just the names, so both policies agree. -/
theorem arrangeUnder_permutes_columns_unknownLabel :
    let table : Table Nat :=
      { index := [default]
        columns := [⟨"user", [some 1]⟩, ⟨"idle", [none]⟩, ⟨"system", [some 3]⟩]
        rectangular := by decide }
    let unknown := ["idle", "nice", "idle", "user"]
    let complete := ["idle", "user", "idle", "system"]
    table.names.Nodup ∧
      (∃ arranged, table.arrangeUnder unknown .append "cpu" = .ok arranged ∧
        arranged.columns.Perm table.columns) ∧
      table.arrangeUnder unknown .strict "cpu" = .error (.missingFromData "cpu" "nice") ∧
      ∃ arranged, table.arrangeUnder complete .strict "cpu" = .ok arranged ∧
        table.arrangeUnder complete .append "cpu" = .ok arranged := by
  intro table unknown complete
  have distinct : table.names.Nodup := by decide
  obtain ⟨⟨arranged, appended, -, kept, -⟩, strict⟩ :=
    arrangeUnder_permutes_columns unknown "cpu" table
  have nice : FirstWithout (· ∈ table.names) unknown "nice" :=
    ⟨by decide, ["idle"], ["idle", "user"], rfl, by decide⟩
  have refused := ((strict distinct).2 _).mpr (.missing nice)
  obtain ⟨⟨permuted, appendedToo, -, -, -, -, same⟩, -⟩ :=
    arrangeUnder_permutes_columns complete "cpu" table
  have accepted : table.arrangeUnder complete .strict "cpu" = .ok (table.arrange complete) := by
    decide
  rw [same _ accepted] at accepted
  exact ⟨distinct, ⟨arranged, appended, kept⟩, refused, permuted, accepted, appendedToo⟩

end Table

end MetricRates
