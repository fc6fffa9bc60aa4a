import Mathlib.Data.List.Basic
import MetricRates.Table.Arrange

/-!
# Arranging loses no column

The columns that the labels take and the columns that are left over are
together all columns of the table.  Which column goes where depends on the names
alone, so arranging can be exchanged with any change of columns that keeps their
names.
-/

namespace MetricRates

variable {α β : Type}

/-- Dropping later repeats leaves no element twice. -/
theorem nodup_eraseDups [BEq α] [LawfulBEq α] : (list : List α) → list.eraseDups.Nodup
  | [] => by simp
  | head :: rest => by
      have shorter : (rest.filter fun other => !other == head).length < (head :: rest).length :=
        Nat.lt_succ_of_le (List.length_filter_le _ _)
      rw [List.eraseDups_cons, List.nodup_cons]
      exact ⟨by simp, nodup_eraseDups _⟩
termination_by list => list.length
decreasing_by exact shorter

theorem eraseDups_of_nodup [BEq α] [LawfulBEq α] {list : List α} (distinct : list.Nodup) :
    list.eraseDups = list := by
  induction list with
  | nil => rfl
  | cons head rest ih =>
      obtain ⟨fresh, distinct⟩ := List.nodup_cons.mp distinct
      have kept : (rest.filter fun other => !other == head) = rest := by
        refine List.filter_eq_self.mpr fun other listed => ?_
        have differs : other ≠ head := ne_of_mem_of_not_mem listed fresh
        simpa using differs
      rw [List.eraseDups_cons, kept, ih distinct]

/-! ## Placed and left columns -/

theorem firstNamed?_cons_self (column : Column α) (rest : List (Column α)) :
    firstNamed? (column :: rest) column.name = some column := by
  simp [firstNamed?]

theorem firstNamed?_cons_of_ne {column : Column α} {label : String} (rest : List (Column α))
    (differs : column.name ≠ label) :
    firstNamed? (column :: rest) label = firstNamed? rest label := by
  simp [firstNamed?, differs]

theorem placedColumns_cons_of_not_mem {labels : List String} {column : Column α}
    (rest : List (Column α)) (unlisted : column.name ∉ labels) :
    placedColumns labels (column :: rest) = placedColumns labels rest := by
  apply List.filterMap_congr
  intro label listed
  apply firstNamed?_cons_of_ne
  rintro rfl
  exact unlisted listed

/-- A listed label takes the first column of its name, and the other labels take
what they take from the rest. -/
theorem placedColumns_cons_perm {labels : List String} (distinct : labels.Nodup)
    {column : Column α} (rest : List (Column α)) (listed : column.name ∈ labels) :
    (placedColumns labels (column :: rest)).Perm
      (column :: placedColumns (labels.erase column.name) rest) := by
  have others : column.name ∉ labels.erase column.name := distinct.not_mem_erase
  have moved := (List.perm_cons_erase listed).filterMap (firstNamed? (column :: rest))
  rw [List.filterMap_cons_some (firstNamed?_cons_self column rest)] at moved
  rw [← placedColumns_cons_of_not_mem rest others]
  exact moved

/-- Every column is either placed or left over. -/
theorem placedColumns_append_leftColumns_perm {labels : List String} (distinct : labels.Nodup)
    (columns : List (Column α)) :
    (placedColumns labels columns ++ leftColumns labels columns).Perm columns := by
  induction columns generalizing labels with
  | nil =>
      have noneFound : placedColumns labels ([] : List (Column α)) = [] :=
        List.filterMap_eq_nil_iff.mpr fun _ _ => rfl
      rw [noneFound]
      exact List.Perm.refl _
  | cons column rest ih =>
      by_cases listed : column.name ∈ labels
      · rw [leftColumns, if_pos listed]
        have placed := placedColumns_cons_perm distinct rest listed
        have others := ih (distinct.erase column.name)
        exact (placed.append_right _).trans (others.cons column)
      · rw [leftColumns, if_neg listed, placedColumns_cons_of_not_mem rest listed]
        exact List.perm_middle.trans ((ih distinct).cons column)

/-! ## Changes that keep the names -/

section Map

variable {f : Column α → Column β}

theorem firstNamed?_map (sameName : ∀ column, (f column).name = column.name)
    (columns : List (Column α)) (label : String) :
    firstNamed? (columns.map f) label = (firstNamed? columns label).map f := by
  simp only [firstNamed?, List.find?_map, Function.comp_def, sameName]

theorem placedColumns_map (sameName : ∀ column, (f column).name = column.name)
    (labels : List String) (columns : List (Column α)) :
    placedColumns labels (columns.map f) = (placedColumns labels columns).map f := by
  rw [placedColumns, placedColumns, List.map_filterMap]
  exact List.filterMap_congr fun label _ => firstNamed?_map sameName columns label

theorem leftColumns_map (sameName : ∀ column, (f column).name = column.name)
    (labels : List String) (columns : List (Column α)) :
    leftColumns labels (columns.map f) = (leftColumns labels columns).map f := by
  induction columns generalizing labels with
  | nil => rfl
  | cons column rest ih =>
      rw [List.map_cons, leftColumns, leftColumns, sameName]
      split
      · exact ih _
      · rw [List.map_cons, ih]

theorem missingLabels_map (sameName : ∀ column, (f column).name = column.name)
    (order : List String) (columns : List (Column α)) :
    missingLabels order (columns.map f) = missingLabels order columns := by
  simp only [missingLabels, firstNamed?_map sameName, Option.isNone_map]

end Map

namespace Table

/-- Arranging keeps every column. -/
theorem columns_arrange_perm (order : List String) (table : Table α) :
    (table.arrange order).columns.Perm table.columns :=
  placedColumns_append_leftColumns_perm (nodup_eraseDups order) table.columns

section Map

variable {f : Column α → Column β} {table : Table α} {changed : Table β}

/-- A table whose columns are changed under their names is arranged in the same
way. -/
theorem columns_arrange_of_map (sameName : ∀ column, (f column).name = column.name)
    (columns : changed.columns = table.columns.map f) (order : List String) :
    (changed.arrange order).columns = (table.arrange order).columns.map f := by
  simp only [arrange, columns, placedColumns_map sameName, leftColumns_map sameName,
    List.map_append]

/-- A table whose columns are changed under their names differs from an order in
the same way. -/
theorem orderFault?_of_map (sameName : ∀ column, (f column).name = column.name)
    (columns : changed.columns = table.columns.map f) (order : List String) (metric : String) :
    changed.orderFault? order metric = table.orderFault? order metric := by
  rw [orderFault?, orderFault?, columns, missingLabels_map sameName, leftColumns_map sameName]
  cases leftColumns order.eraseDups table.columns with
  | nil => rfl
  | cons column rest => simp only [List.map_cons, sameName]

end Map

/-! ## Changes of whole tables -/

/-- A change of tables takes each column to one of the same name, and the index to one that
does not depend on the columns. -/
structure ChangesColumns (change : Table α → Table β) (f : Column α → Column β) : Prop where
  name : ∀ column, (f column).name = column.name
  columns : ∀ table, (change table).columns = table.columns.map f
  index : ∀ first second : Table α, first.index = second.index →
    (change first).index = (change second).index

namespace ChangesColumns

variable {change : Table α → Table β} {f : Column α → Column β}

theorem names (changes : ChangesColumns change f) (table : Table α) :
    (change table).names = table.names := by
  simp only [Table.names, changes.columns, List.map_map, Function.comp_def, changes.name]

/-- Such a change can be made before arranging or afterwards. -/
theorem arrangeUnder (changes : ChangesColumns change f) (order : List String)
    (policy : OrderPolicy) (metric : String) (table : Table α) :
    (change table).arrangeUnder order policy metric =
      (table.arrangeUnder order policy metric).map change := by
  have faults : (change table).orderFault? order metric = table.orderFault? order metric :=
    orderFault?_of_map changes.name (changes.columns table) order metric
  have arranged : (change table).arrange order = change (table.arrange order) := by
    apply ext_parts
    · exact changes.index _ _ rfl
    · rw [columns_arrange_of_map changes.name (changes.columns table), changes.columns]
  cases policy with
  | append => exact congrArg Except.ok arranged
  | strict =>
      simp only [Table.arrangeUnder, faults, arranged]
      cases table.orderFault? order metric <;> rfl

end ChangesColumns

end Table

end MetricRates
