import MetricRates.Proofs.Family.Sorted
import MetricRates.Proofs.Table.Arrangement

/-!
# Where an order and the columns differ

An order agrees with the columns of a table when it lists exactly their names.
Otherwise the first listed label that is no name is told, or, when all listed labels
are names, the first column that is not listed.
-/

namespace MetricRates

variable {α : Type}

/-! ## Differences between an order and some labels -/

/-- The first label of an order that does not have a property. -/
structure FirstWithout (has : String → Prop) (order : List String) (label : String) : Prop where
  lacks : ¬ has label
  first : ∃ before after, order = before ++ label :: after ∧ ∀ earlier ∈ before, has earlier

/-- The least label with a property that an order does not list, where all that
the order lists has the property. -/
structure LeastUnlisted (has : String → Prop) (order : List String) (label : String) : Prop where
  complete : ∀ listed ∈ order, has listed
  holds : has label
  unlisted : label ∉ order
  least : ∀ other, has other → other ∉ order → label ≤ other

/-- The error for the difference between an order and the labels that were seen;
a listed label that was never seen comes first. -/
inductive OrderFault (seen : String → Prop) (order : List String) (metric : String) :
    EngineError → Prop
  | missing {label : String} (first : FirstWithout seen order label) :
      OrderFault seen order metric (.missingFromData metric label)
  | unlisted {label : String} (least : LeastUnlisted seen order label) :
      OrderFault seen order metric (.unlistedInOrder metric label)

/-- The first difference between an order and some names: the first listed label that is
no name, or, where there is none, the first name that is not listed. -/
inductive FirstDifference (order names : List String) (metric : String) : EngineError → Prop
  | missing {label : String} (first : FirstWithout (· ∈ names) order label) :
      FirstDifference order names metric (.missingFromData metric label)
  | unlisted {label : String} (complete : ∀ listed ∈ order, listed ∈ names)
      (first : FirstWithout (· ∈ order) names label) :
      FirstDifference order names metric (.unlistedInOrder metric label)

theorem orderFault_missingFromData_iff {seen : String → Prop} {order : List String}
    {metric label : String} :
    OrderFault seen order metric (.missingFromData metric label) ↔
      FirstWithout seen order label :=
  ⟨fun (.missing first) => first, .missing⟩

theorem orderFault_unlistedInOrder_iff {seen : String → Prop} {order : List String}
    {metric label : String} :
    OrderFault seen order metric (.unlistedInOrder metric label) ↔
      LeastUnlisted seen order label :=
  ⟨fun (.unlisted least) => least, .unlisted⟩

/-- The first label that a filter keeps. -/
theorem head?_filter_iff {has : String → Prop} {lacks : String → Bool}
    (opposite : ∀ label, lacks label = true ↔ ¬ has label) {labels : List String}
    {label : String} :
    (labels.filter lacks).head? = some label ↔ FirstWithout has labels label := by
  rw [List.head?_filter, List.find?_eq_some_iff_append]
  simp only [opposite, Bool.not_eq_true', ← Bool.not_eq_true, not_not]
  constructor
  · rintro ⟨lacks, first⟩
    exact ⟨lacks, first⟩
  · intro without
    exact ⟨without.lacks, without.first⟩

/-- An ascending list starts with its least member. -/
theorem head?_of_ascending {list : List String} (ascending : list.Pairwise (· < ·))
    {label : String} :
    list.head? = some label ↔ label ∈ list ∧ ∀ other ∈ list, label ≤ other := by
  cases list with
  | nil => simp
  | cons first rest =>
      have later := (List.pairwise_cons.mp ascending).1
      have least : ∀ other ∈ first :: rest, first ≤ other := by
        intro other member
        rcases List.mem_cons.mp member with rfl | member
        · exact String.le_refl _
        · exact String.not_lt.mp (String.lt_asymm (later other member))
      rw [List.head?_cons, Option.some.injEq]
      constructor
      · rintro rfl
        exact ⟨List.mem_cons_self, least⟩
      · rintro ⟨member, leastToo⟩
        exact String.le_antisymm (least label member) (leastToo first List.mem_cons_self)

open Classical in
/-- Among ascending labels the first one without a property is the least one. -/
theorem firstWithout_iff_of_ascending {has : String → Prop} {labels : List String}
    (ascending : labels.Pairwise (· < ·)) {label : String} :
    FirstWithout has labels label ↔
      label ∈ labels ∧ ¬ has label ∧ ∀ other ∈ labels, ¬ has other → label ≤ other := by
  have opposite (label : String) : decide (¬ has label) = true ↔ ¬ has label :=
    decide_eq_true_iff
  rw [← head?_filter_iff opposite, head?_of_ascending (ascending.filter _)]
  simp only [List.mem_filter, decide_eq_true_eq, and_assoc, and_imp]

/-- Where the names ascend, the first difference names the least label that is not
listed. -/
theorem firstDifference_iff_orderFault {order names : List String} {metric : String}
    (ascending : names.Pairwise (· < ·)) {cause : EngineError} :
    FirstDifference order names metric cause ↔ OrderFault (· ∈ names) order metric cause := by
  constructor
  · intro difference
    cases difference with
    | missing first => exact .missing first
    | unlisted complete first =>
        obtain ⟨named, unlisted, least⟩ := (firstWithout_iff_of_ascending ascending).mp first
        exact .unlisted ⟨complete, named, unlisted, least⟩
  · intro fault
    cases fault with
    | missing first => exact .missing first
    | unlisted least =>
        exact .unlisted least.complete ((firstWithout_iff_of_ascending ascending).mpr
          ⟨least.holds, least.unlisted, least.least⟩)

/-! ## Missing and left columns -/

theorem isNone_firstNamed?_iff {columns : List (Column α)} {label : String} :
    (firstNamed? columns label).isNone ↔ label ∉ columns.map Column.name := by
  simp [firstNamed?]

theorem missingLabels_eq_nil_iff {order : List String} {columns : List (Column α)} :
    missingLabels order columns = [] ↔ ∀ label ∈ order, label ∈ columns.map Column.name := by
  simp only [missingLabels, List.filter_eq_nil_iff, isNone_firstNamed?_iff, not_not]

theorem head?_missingLabels_iff {order : List String} {columns : List (Column α)}
    {label : String} :
    (missingLabels order columns).head? = some label ↔
      FirstWithout (· ∈ columns.map Column.name) order label :=
  head?_filter_iff fun _ => isNone_firstNamed?_iff

/-- Where no name repeats, the columns that are left over are those whose name is
not listed. -/
theorem leftColumns_eq_filter {labels : List String} {columns : List (Column α)}
    (distinct : (columns.map Column.name).Nodup) :
    leftColumns labels columns = columns.filter fun column => decide (column.name ∉ labels) := by
  induction columns generalizing labels with
  | nil => rfl
  | cons column rest ih =>
      obtain ⟨alone, distinct⟩ := List.nodup_cons.mp distinct
      by_cases listed : column.name ∈ labels
      · rw [leftColumns, if_pos listed, ih distinct,
          List.filter_cons_of_neg (by simpa using listed)]
        apply List.filter_congr
        intro other member
        have differs : other.name ≠ column.name := fun same =>
          alone (same ▸ List.mem_map_of_mem member)
        exact decide_eq_decide.mpr (not_congr (List.mem_erase_of_ne differs))
      · rw [leftColumns, if_neg listed, ih distinct,
          List.filter_cons_of_pos (by simpa using listed)]

theorem head?_leftColumns_iff {labels : List String} {columns : List (Column α)}
    (distinct : (columns.map Column.name).Nodup) {label : String} :
    ((leftColumns labels columns).map Column.name).head? = some label ↔
      FirstWithout (· ∈ labels) (columns.map Column.name) label := by
  have names : (leftColumns labels columns).map Column.name =
      (columns.map Column.name).filter fun name => decide (name ∉ labels) := by
    rw [leftColumns_eq_filter distinct, List.filter_map]
    rfl
  rw [names]
  exact head?_filter_iff fun _ => decide_eq_true_iff

/-! ## The fault of a table -/

namespace Table

variable {order : List String} {metric : String} {table : Table α}

/-- The fault that is told is the first difference between the order and the names of
the columns. -/
theorem orderFault?_eq_some_iff_firstDifference (distinct : table.names.Nodup)
    {cause : EngineError} :
    table.orderFault? order metric = some cause ↔
      FirstDifference order table.names metric cause := by
  have first := @head?_missingLabels_iff α order table.columns
  have left := @head?_leftColumns_iff α order.eraseDups table.columns distinct
  simp only [List.mem_eraseDups] at left
  rw [orderFault?]
  cases missing : missingLabels order table.columns with
  | cons label rest =>
      simp only [missing, List.head?_cons, Option.some.injEq] at first
      simp only [Option.some.injEq]
      constructor
      · rintro rfl
        exact .missing (first.mp rfl)
      · intro difference
        cases difference with
        | missing without => rw [first.mpr without]
        | unlisted complete =>
            rw [missingLabels_eq_nil_iff.mpr complete] at missing
            cases missing
  | nil =>
      have complete := missingLabels_eq_nil_iff.mp missing
      have noneFirst {label : String} : ¬ FirstWithout (· ∈ table.names) order label := by
        intro without
        have found := first.mpr without
        rw [missing] at found
        cases found
      cases leftover : leftColumns order.eraseDups table.columns with
      | nil =>
          simp only [leftover, List.map_nil, List.head?_nil, reduceCtorEq, false_iff] at left
          simp only [reduceCtorEq, false_iff]
          intro difference
          cases difference with
          | missing without => exact noneFirst without
          | unlisted _ without => exact left without
      | cons column rest =>
          simp only [leftover, List.map_cons, List.head?_cons, Option.some.injEq] at left
          simp only [Option.some.injEq]
          constructor
          · rintro rfl
            exact .unlisted complete (left.mp rfl)
          · intro difference
            cases difference with
            | missing without => exact absurd without noneFirst
            | unlisted _ without => rw [left.mpr without]

/-- Where the names ascend, the fault that is told is the difference between the order and
the names as a set. -/
theorem orderFault?_eq_some_iff (ascending : table.names.Pairwise (· < ·))
    {cause : EngineError} :
    table.orderFault? order metric = some cause ↔
      OrderFault (· ∈ table.names) order metric cause := by
  have distinct : table.names.Nodup :=
    nodup_of_ascending (fun _ _ => String.lt_asymm) ascending
  rw [orderFault?_eq_some_iff_firstDifference distinct, firstDifference_iff_orderFault ascending]

/-- An order has no fault exactly when it lists the names of the columns. -/
theorem orderFault?_eq_none_iff (distinct : table.names.Nodup) :
    table.orderFault? order metric = none ↔ ∀ label, label ∈ order ↔ label ∈ table.names := by
  have leftover : leftColumns order.eraseDups table.columns = [] ↔
      ∀ label ∈ table.names, label ∈ order := by
    rw [leftColumns_eq_filter distinct]
    simp [names, List.filter_eq_nil_iff]
  have complete := @missingLabels_eq_nil_iff α order table.columns
  have faultless : table.orderFault? order metric = none ↔
      missingLabels order table.columns = [] ∧ leftColumns order.eraseDups table.columns = [] := by
    rw [orderFault?]
    cases missingLabels order table.columns with
    | cons label rest => simp
    | nil => cases leftColumns order.eraseDups table.columns <;> simp
  rw [faultless, complete, leftover]
  constructor
  · rintro ⟨listed, named⟩ label
    exact ⟨listed label, named label⟩
  · intro agree
    exact ⟨fun label => (agree label).mp, fun label => (agree label).mpr⟩

end Table

end MetricRates
