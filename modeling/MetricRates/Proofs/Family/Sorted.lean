/-!
# Ascending lists are determined by their members

Two lists in strictly ascending order that have the same members are the same
list.
-/

namespace MetricRates

variable {α : Type}

theorem nodup_of_ascending {r : α → α → Prop} (asymm : ∀ a b, r a b → ¬ r b a)
    {list : List α} (ascending : list.Pairwise r) : list.Nodup :=
  ascending.imp fun {a b} less same => by
    subst same
    exact asymm a a less less

/-- A list in strictly ascending order is determined by its members. -/
theorem eq_of_ascending {r : α → α → Prop} (asymm : ∀ a b, r a b → ¬ r b a)
    {first second : List α} (firstAscending : first.Pairwise r)
    (secondAscending : second.Pairwise r) (sameMembers : ∀ a, a ∈ first ↔ a ∈ second) :
    first = second := by
  have permuted : first.Perm second :=
    (List.perm_ext_iff_of_nodup (nodup_of_ascending asymm firstAscending)
      (nodup_of_ascending asymm secondAscending)).mpr sameMembers
  refine List.Perm.eq_of_pairwise ?_ firstAscending secondAscending permuted
  intro a b _ _ less greater
  exact absurd greater (asymm a b less)

end MetricRates
