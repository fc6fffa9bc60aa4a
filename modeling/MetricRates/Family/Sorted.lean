/-!
# Sorted lists without repeats

A list is made into the ascending list of its members, each once, by sorting it
and dropping what equals its predecessor.
-/

namespace MetricRates

variable {α : Type} [DecidableEq α]

/-- Drop every element that equals the one before it. -/
def dropRepeats : List α → List α
  | [] => []
  | [a] => [a]
  | a :: b :: rest => if a = b then dropRepeats (b :: rest) else a :: dropRepeats (b :: rest)

/-- The members of a list in ascending order, each once. -/
def sortedMembers (le : α → α → Bool) (members : List α) : List α :=
  dropRepeats (members.mergeSort le)

@[simp]
theorem mem_dropRepeats {a : α} {list : List α} : a ∈ dropRepeats list ↔ a ∈ list := by
  fun_induction dropRepeats list <;> simp_all

@[simp]
theorem mem_sortedMembers {le : α → α → Bool} {a : α} {members : List α} :
    a ∈ sortedMembers le members ↔ a ∈ members := by
  simp [sortedMembers]

/-- Dropping repeats from a list in weakly ascending order leaves it strictly
ascending. -/
theorem pairwise_dropRepeats {r s : α → α → Prop} {list : List α}
    (strict : ∀ a b, r a b → a ≠ b → s a b) (ne_of_le : ∀ a b c, r a b → r b c → a ≠ b → a ≠ c)
    (ascending : list.Pairwise r) : (dropRepeats list).Pairwise s := by
  fun_induction dropRepeats list with
  | case1 => exact .nil
  | case2 a => simp
  | case3 rest b ih => exact ih ascending.of_cons
  | case4 a b rest distinct ih =>
      have rest_ascending := ascending.of_cons
      refine List.pairwise_cons.mpr ⟨fun c member => ?_, ih rest_ascending⟩
      have member := mem_dropRepeats.mp member
      have before := (List.pairwise_cons.mp ascending).1
      rcases List.mem_cons.mp member with rfl | later
      · exact strict _ _ (before _ (by simp)) distinct
      · have step := (List.pairwise_cons.mp rest_ascending).1 c later
        exact strict _ _ (before c (by simp [later]))
          (ne_of_le a b c (before b (by simp)) step distinct)

end MetricRates
