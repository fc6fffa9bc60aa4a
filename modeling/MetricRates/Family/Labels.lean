import MetricRates.Family.Sorted

/-!
# Sets of labels

A set of labels is kept as the ascending list of its members.
-/

namespace MetricRates

/-- A finite set of labels. -/
structure LabelSet where
  members : List String
  ascending : members.Pairwise (· < ·)
  deriving DecidableEq

private theorem le_total_bool (a b : String) :
    (decide (a ≤ b) || decide (b ≤ a)) = true := by
  simpa using String.le_total a b

/-- The set of the labels in a list. -/
def LabelSet.ofList (labels : List String) : LabelSet where
  members := sortedMembers (fun a b => decide (a ≤ b)) labels
  ascending := by
    have sorted := @List.pairwise_mergeSort String (fun a b => decide (a ≤ b))
      (by simpa using fun a b c => String.le_trans) le_total_bool labels
    refine pairwise_dropRepeats (r := fun a b => decide (a ≤ b) = true) ?_ ?_ sorted
    · intro a b le distinct
      have le : a ≤ b := by simpa using le
      exact String.not_le.mp fun ge => distinct (String.le_antisymm le ge)
    · rintro a b c first second distinct rfl
      have first : a ≤ b := by simpa using first
      have second : b ≤ a := by simpa using second
      exact distinct (String.le_antisymm first second)

instance : Membership String LabelSet := ⟨fun set label => label ∈ set.members⟩

instance (label : String) (set : LabelSet) : Decidable (label ∈ set) :=
  inferInstanceAs (Decidable (label ∈ set.members))

/-- A set of labels has exactly the labels of the list it was made from. -/
@[simp]
theorem LabelSet.mem_ofList {label : String} {labels : List String} :
    label ∈ LabelSet.ofList labels ↔ label ∈ labels :=
  mem_sortedMembers

/-- Whether a set has no labels. -/
def LabelSet.isEmpty (set : LabelSet) : Bool :=
  set.members.isEmpty

end MetricRates
