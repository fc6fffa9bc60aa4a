/-!
# Cutting a list at separators

A list is cut at every occurrence of a separator; there is one piece more than
there are separators, and no piece holds one.
-/

namespace MetricRates.Text

variable {α : Type} [DecidableEq α]

/-- Cut a list at each occurrence of a separator. -/
def cutAt (separator : α) : List α → List (List α)
  | [] => [[]]
  | a :: rest =>
      if a = separator then [] :: cutAt separator rest
      else
        match cutAt separator rest with
        | piece :: pieces => (a :: piece) :: pieces
        | [] => [[a]]

@[simp]
theorem cutAt_nil (separator : α) : cutAt separator [] = [[]] := rfl

theorem cutAt_ne_nil (separator : α) (list : List α) : cutAt separator list ≠ [] := by
  unfold cutAt
  split
  · simp
  · split
    · simp
    · split <;> simp

/-- No piece holds the separator. -/
theorem separator_not_mem_of_mem_cutAt {separator : α} {list piece : List α}
    (member : piece ∈ cutAt separator list) : separator ∉ piece := by
  induction list generalizing piece with
  | nil => simp_all
  | cons a rest ih =>
      unfold cutAt at member
      split at member
      · rcases List.mem_cons.mp member with rfl | member
        · simp
        · exact ih member
      · rename_i distinct
        split at member
        · rename_i first pieces cut
          rcases List.mem_cons.mp member with rfl | member
          · have absent : separator ∉ first := ih (by simp [cut])
            simp [absent, Ne.symm distinct]
          · exact ih (by simp [cut, member])
        · simp only [List.mem_singleton] at member
          subst member
          simp [Ne.symm distinct]

end MetricRates.Text
