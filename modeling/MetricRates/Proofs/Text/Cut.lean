import Mathlib.Data.List.Basic
import MetricRates.Text.Cut

/-!
# Cutting at separators and after them

Cutting at a separator drops it; cutting after it leaves it at the end of its
piece.  A list that is put together from pieces is cut into these pieces again, as
long as every piece but the last ends with its only separator.
-/

namespace MetricRates.Text

variable {α : Type} {separator : α}

/-! ## Pieces -/

/-- Pieces that end with their only separator, apart from a last one that has none. -/
inductive Pieces (separator : α) : List (List α) → Prop
  | nil : Pieces separator []
  | last {piece : List α} (nonempty : piece ≠ []) (absent : separator ∉ piece) :
      Pieces separator [piece]
  | cons {piece : List α} {pieces : List (List α)} (absent : separator ∉ piece)
      (later : Pieces separator pieces) : Pieces separator ((piece ++ [separator]) :: pieces)

namespace Pieces

/-- Some of the pieces, in the same order, are pieces again. -/
theorem sublist {pieces fewer : List (List α)} (cut : Pieces separator pieces)
    (kept : fewer.Sublist pieces) : Pieces separator fewer := by
  induction cut generalizing fewer with
  | nil => rw [List.sublist_nil.mp kept]; exact .nil
  | last nonempty absent =>
      rcases List.sublist_singleton.mp kept with rfl | rfl
      · exact .nil
      · exact .last nonempty absent
  | cons absent _ ih =>
      rcases List.sublist_cons_iff.mp kept with skipped | ⟨rest, rfl, keptRest⟩
      · exact ih skipped
      · exact .cons absent (ih keptRest)

/-- Pieces are kept by a map that keeps separators at the end and adds none. -/
theorem map {β : Type} {separatorOfImage : β} {translate : List α → List β}
    {pieces : List (List α)} (cut : Pieces separator pieces)
    (nonempty : ∀ piece, piece ≠ [] → translate piece ≠ [])
    (reflected : ∀ piece, separatorOfImage ∈ translate piece → separator ∈ piece)
    (ended : ∀ piece, translate (piece ++ [separator]) = translate piece ++ [separatorOfImage]) :
    Pieces separatorOfImage (pieces.map translate) := by
  induction cut with
  | nil => exact .nil
  | last some absent => exact .last (nonempty _ some) (mt (reflected _) absent)
  | cons absent _ ih =>
      rw [List.map_cons, ended]
      exact .cons (mt (reflected _) absent) ih

end Pieces

variable [DecidableEq α]

/-! ## Cutting at separators -/

theorem cutAt_cons_of_ne {a : α} (differs : a ≠ separator) (rest : List α) :
    cutAt separator (a :: rest) = (cutAt separator rest).modifyHead (a :: ·) := by
  rw [cutAt, if_neg differs]
  cases cut : cutAt separator rest with
  | nil => exact absurd cut (cutAt_ne_nil separator rest)
  | cons piece pieces => rfl

/-- Cutting at a separator is splitting on it. -/
theorem cutAt_eq_splitOn (separator : α) (list : List α) :
    cutAt separator list = list.splitOn separator := by
  induction list with
  | nil => simp
  | cons a rest ih =>
      rw [List.splitOn_eq_splitOnP, List.splitOnP_cons_eq_if_modifyHead,
        ← List.splitOn_eq_splitOnP, ← ih]
      by_cases same : a = separator
      · simp [cutAt, same]
      · rw [cutAt_cons_of_ne same, if_neg (by simpa using same)]

theorem cutAt_of_not_mem {list : List α} (absent : separator ∉ list) :
    cutAt separator list = [list] := by
  induction list with
  | nil => rfl
  | cons a rest ih =>
      obtain ⟨differs, absent⟩ := List.ne_and_not_mem_of_not_mem_cons absent
      rw [cutAt_cons_of_ne differs.symm, ih absent]
      rfl

/-- The first piece ends at the first separator. -/
theorem cutAt_append {first : List α} (absent : separator ∉ first) (rest : List α) :
    cutAt separator (first ++ separator :: rest) = first :: cutAt separator rest := by
  induction first with
  | nil => simp [cutAt]
  | cons a first ih =>
      obtain ⟨differs, absent⟩ := List.ne_and_not_mem_of_not_mem_cons absent
      rw [List.cons_append, cutAt_cons_of_ne differs.symm, ih absent]
      rfl

/-- Induction over a list piece by piece. -/
@[elab_as_elim]
theorem cut_induction {motive : List α → Prop} (separator : α)
    (last : ∀ list, separator ∉ list → motive list)
    (cut : ∀ first rest, separator ∉ first → motive rest → motive (first ++ separator :: rest))
    (list : List α) : motive list := by
  induction size : list.length using Nat.strongRecOn generalizing list with
  | ind size ih =>
      subst size
      by_cases member : separator ∈ list
      · obtain ⟨first, rest, rfl, absent⟩ := List.eq_append_cons_of_mem member
        have shorter : rest.length < (first ++ separator :: rest).length := by simp; omega
        exact cut first rest absent (ih rest.length shorter rest rfl)
      · exact last list member

/-- Cutting commutes with a map of pieces that keeps the separators. -/
theorem cutAt_flatMap {β : Type} [DecidableEq β] {translate : α → List β} {separatorOfImage : β}
    (kept : translate separator = [separatorOfImage])
    (reflected : ∀ a, separatorOfImage ∈ translate a → a = separator) (list : List α) :
    cutAt separatorOfImage (list.flatMap translate) =
      (cutAt separator list).map fun piece => piece.flatMap translate := by
  have absent {piece : List α} (free : separator ∉ piece) :
      separatorOfImage ∉ piece.flatMap translate := by
    intro member
    obtain ⟨a, inPiece, inImage⟩ := List.mem_flatMap.mp member
    exact free (reflected a inImage ▸ inPiece)
  induction list using cut_induction separator with
  | last list free => rw [cutAt_of_not_mem free, cutAt_of_not_mem (absent free)]; rfl
  | cut first rest free ih =>
      rw [cutAt_append free, List.flatMap_append, List.flatMap_cons, kept, List.singleton_append,
        cutAt_append (absent free), ih]
      rfl

/-! ## Cutting after separators -/

/-- Cut a list after each occurrence of a separator. -/
def cutAfter (separator : α) : List α → List (List α)
  | [] => []
  | a :: rest =>
      if a = separator then [a] :: cutAfter separator rest
      else
        match cutAfter separator rest with
        | piece :: pieces => (a :: piece) :: pieces
        | [] => [[a]]

theorem cutAfter_of_not_mem {list : List α} (nonempty : list ≠ []) (absent : separator ∉ list) :
    cutAfter separator list = [list] := by
  induction list with
  | nil => exact absurd rfl nonempty
  | cons a rest ih =>
      obtain ⟨differs, absent⟩ := List.ne_and_not_mem_of_not_mem_cons absent
      rw [cutAfter, if_neg differs.symm]
      cases rest with
      | nil => rfl
      | cons b rest => rw [ih (List.cons_ne_nil b rest) absent]

/-- The first piece ends with the first separator. -/
theorem cutAfter_append {first : List α} (absent : separator ∉ first) (rest : List α) :
    cutAfter separator (first ++ separator :: rest) =
      (first ++ [separator]) :: cutAfter separator rest := by
  induction first with
  | nil => simp [cutAfter]
  | cons a first ih =>
      obtain ⟨differs, absent⟩ := List.ne_and_not_mem_of_not_mem_cons absent
      rw [List.cons_append, cutAfter, if_neg differs.symm, ih absent]
      rfl

theorem pieces_cutAfter (separator : α) (list : List α) :
    Pieces separator (cutAfter separator list) := by
  induction list using cut_induction separator with
  | last list absent =>
      by_cases empty : list = []
      · subst empty
        exact .nil
      · rw [cutAfter_of_not_mem empty absent]
        exact .last empty absent
  | cut first rest absent ih =>
      rw [cutAfter_append absent]
      exact .cons absent ih

theorem flatten_cutAfter (separator : α) (list : List α) :
    (cutAfter separator list).flatten = list := by
  induction list using cut_induction separator with
  | last list absent =>
      by_cases empty : list = []
      · subst empty
        rfl
      · rw [cutAfter_of_not_mem empty absent, List.flatten_singleton]
  | cut first rest absent ih =>
      rw [cutAfter_append absent, List.flatten_cons, ih, List.append_assoc, List.singleton_append]

theorem cutAfter_flatten {pieces : List (List α)} (cut : Pieces separator pieces) :
    cutAfter separator pieces.flatten = pieces := by
  induction cut with
  | nil => rfl
  | last nonempty absent => rw [List.flatten_singleton, cutAfter_of_not_mem nonempty absent]
  | cons absent _ ih =>
      rw [List.flatten_cons, List.append_assoc, List.singleton_append, cutAfter_append absent, ih]

/-- Cutting after separators gives the only pieces that a list is put together from. -/
theorem cutAfter_eq_iff {list : List α} {pieces : List (List α)} :
    cutAfter separator list = pieces ↔ Pieces separator pieces ∧ pieces.flatten = list := by
  constructor
  · rintro rfl
    exact ⟨pieces_cutAfter separator list, flatten_cutAfter separator list⟩
  · rintro ⟨cut, rfl⟩
    exact cutAfter_flatten cut

/-- Where it does not matter whether a piece ends with a separator, cutting at separators and
cutting after them give the same, but for an empty piece behind the last separator. -/
theorem map_cutAt_cases {β : Type} (value : List α → β)
    (ended : ∀ piece, value (piece ++ [separator]) = value piece) (list : List α) :
    (cutAt separator list).map value = (cutAfter separator list).map value ∨
      (cutAt separator list).map value =
        (cutAfter separator list).map value ++ [value []] := by
  induction list using cut_induction separator with
  | last list absent =>
      rw [cutAt_of_not_mem absent]
      by_cases none : list = []
      · subst none
        exact .inr rfl
      · rw [cutAfter_of_not_mem none absent]
        exact .inl rfl
  | cut first rest absent ih =>
      rw [cutAfter_append absent, cutAt_append absent, List.map_cons, List.map_cons, ended]
      rcases ih with same | oneMore
      · exact .inl (congrArg _ same)
      · exact .inr (congrArg _ oneMore)

end MetricRates.Text
