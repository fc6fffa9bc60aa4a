import Mathlib.Algebra.Group.Nat.Even
import MetricRates.Proofs.Csv.Quoting

/-!
# Fields end where the quotes are even

A comma ends a field when the number of quotes before it is even, also on a line whose
quotes are not balanced or stand inside a field.  Apart from its quotes a field is the
piece of the line between two such commas, so cutting a line takes nothing from it but
these commas and quotes.
-/

namespace MetricRates.Csv

/-! ## Pieces of a line -/

/-- A field ends at a comma that has an even number of quotes before it. -/
def EndsField (chars : List Char) (position : Nat) : Prop :=
  chars[position]? = some ',' ∧ Even ((chars.take position).count '"')

instance (chars : List Char) (position : Nat) : Decidable (EndsField chars position) :=
  inferInstanceAs (Decidable (_ ∧ _))

/-- The positions at which a field ends. -/
def fieldEnds (chars : List Char) : List Nat :=
  (List.range chars.length).filter (EndsField chars ·)

/-- The pieces of a line between the ends of its fields, with their quotes. -/
def fieldPieces (chars : List Char) : List (List Char) :=
  (chars.zipIdx.splitOnP fun entry => EndsField chars entry.2).map (·.map Prod.fst)

/-- The pieces of the rest of a line, given what stands before it. -/
def piecesAfter (before rest : List Char) : List (List Char) :=
  ((rest.zipIdx before.length).splitOnP fun entry => EndsField (before ++ rest) entry.2).map
    (·.map Prod.fst)

theorem fieldPieces_eq_piecesAfter (chars : List Char) : fieldPieces chars = piecesAfter [] chars :=
  rfl

theorem endsField_append_cons {before rest : List Char} {c : Char} :
    EndsField (before ++ c :: rest) before.length ↔ c = ',' ∧ Even (before.count '"') := by
  simp [EndsField]

theorem piecesAfter_nil (before : List Char) : piecesAfter before [] = [[]] := by
  simp [piecesAfter]

theorem piecesAfter_ne_nil (before rest : List Char) : piecesAfter before rest ≠ [] := by
  simp [piecesAfter, List.splitOnP_ne_nil]

theorem map_modifyHead {α β : Type} {f : α → β} {change : α → α} {changeImage : β → β}
    (commutes : ∀ a, f (change a) = changeImage (f a)) (list : List α) :
    (list.modifyHead change).map f = (list.map f).modifyHead changeImage := by
  cases list with
  | nil => rfl
  | cons a rest => simp [commutes]

/-- What becomes of a character is decided by the quotes before it. -/
theorem piecesAfter_cons (before rest : List Char) (c : Char) :
    piecesAfter before (c :: rest) =
      if c = ',' ∧ Even (before.count '"') then [] :: piecesAfter (before ++ [c]) rest
      else (piecesAfter (before ++ [c]) rest).modifyHead (c :: ·) := by
  have same : before ++ c :: rest = before ++ [c] ++ rest := List.append_cons before c rest
  have length : before.length + 1 = (before ++ [c]).length := by simp
  rw [piecesAfter, List.zipIdx_cons, List.splitOnP_cons_eq_if_modifyHead]
  by_cases ends : c = ',' ∧ Even (before.count '"')
  · rw [if_pos ends, if_pos (decide_eq_true (endsField_append_cons.mpr ends)), same, length]
    rfl
  · rw [if_neg ends, if_neg (by simpa [EndsField] using ends), same, length, piecesAfter]
    exact map_modifyHead (fun _ => List.map_cons) _

theorem length_splitOnP {α : Type} (test : α → Bool) (list : List α) :
    (list.splitOnP test).length = list.countP test + 1 := by
  induction list with
  | nil => simp
  | cons a rest ih =>
      rw [List.splitOnP_cons_eq_if_modifyHead, List.countP_cons]
      split <;> simp [ih]

/-- There is one piece more than there are ends of fields. -/
theorem length_fieldPieces (chars : List Char) :
    (fieldPieces chars).length = (fieldEnds chars).length + 1 := by
  have positions : chars.zipIdx.map Prod.snd = List.range chars.length := by
    rw [List.zipIdx_map_snd, List.range_eq_range']
  rw [fieldPieces, List.length_map, length_splitOnP, fieldEnds, ← positions,
    ← List.countP_eq_length_filter, List.countP_map]
  rfl

theorem intercalate_modifyHead_cons (separator c : Char) {pieces : List (List Char)}
    (nonempty : pieces ≠ []) :
    [separator].intercalate (pieces.modifyHead (c :: ·)) =
      c :: [separator].intercalate pieces := by
  cases pieces with
  | nil => exact absurd rfl nonempty
  | cons piece pieces =>
      cases pieces with
      | nil => simp
      | cons next pieces => simp [List.intercalate_cons_cons]

/-- With a comma between each two of them the pieces are the line again. -/
theorem intercalate_piecesAfter (before rest : List Char) :
    [','].intercalate (piecesAfter before rest) = rest := by
  induction rest generalizing before with
  | nil => simp [piecesAfter_nil]
  | cons c rest ih =>
      have nonempty := piecesAfter_ne_nil (before ++ [c]) rest
      rw [piecesAfter_cons]
      split
      · rename_i ends
        rw [List.intercalate_cons_of_ne_nil nonempty, ih, ends.1]
        rfl
      · rw [intercalate_modifyHead_cons ',' c nonempty, ih]

/-! ## Fields without quotes -/

/-- A text without its quotes. -/
def withoutQuotes (cs : List Char) : List Char :=
  cs.filter (· ≠ '"')

theorem withoutQuotes_intercalate (pieces : List (List Char)) :
    withoutQuotes ([','].intercalate pieces) = [','].intercalate (pieces.map withoutQuotes) := by
  induction pieces with
  | nil => rfl
  | cons piece pieces ih =>
      cases pieces with
      | nil => simp
      | cons next pieces =>
          rw [List.intercalate_cons_cons, List.map_cons, List.map_cons, List.intercalate_cons_cons,
            ← List.map_cons, ← ih]
          simp [withoutQuotes]

theorem map_withoutQuotes_modifyHead (c : Char) (pieces : List (List Char)) :
    (pieces.modifyHead (c :: ·)).map withoutQuotes =
      (pieces.map withoutQuotes).modifyHead (withoutQuotes [c] ++ ·) :=
  map_modifyHead (fun piece => List.filter_append [c] piece) pieces

theorem map_withoutQuotes_consHead (c : Char) {fields : List (List Char)} (nonempty : fields ≠ []) :
    (consHead c fields).map withoutQuotes =
      (fields.map withoutQuotes).modifyHead (withoutQuotes [c] ++ ·) := by
  rw [consHead_eq_modifyHead c nonempty, map_withoutQuotes_modifyHead]

theorem modifyHead_withoutQuotes_quote (pieces : List (List Char)) :
    pieces.modifyHead (withoutQuotes ['"'] ++ ·) = pieces :=
  congrFun List.modifyHead_id pieces

theorem map_withoutQuotes_piecesAfter_quote (before rest : List Char) :
    (piecesAfter before ('"' :: rest)).map withoutQuotes =
      (piecesAfter (before ++ ['"']) rest).map withoutQuotes := by
  rw [piecesAfter_cons, if_neg (by simp), map_withoutQuotes_modifyHead,
    modifyHead_withoutQuotes_quote]

/-! ## Quotes that have been read -/

/-- The reading is outside quotes exactly after an even number of them. -/
def TracksQuotes (quoted : Bool) (before : List Char) : Prop :=
  quoted = false ↔ Even (before.count '"')

namespace TracksQuotes

variable {quoted : Bool} {before : List Char}

theorem start : TracksQuotes false [] := by
  simp [TracksQuotes]

theorem quote (tracks : TracksQuotes quoted before) :
    TracksQuotes (!quoted) (before ++ ['"']) := by
  have flipped : (!quoted) = false ↔ ¬ quoted = false := by simp
  rw [TracksQuotes, List.count_append, List.count_singleton_self, Nat.even_add_one, flipped]
  exact not_congr tracks

theorem other (tracks : TracksQuotes quoted before) {c : Char} (unquoting : c ≠ '"') :
    TracksQuotes quoted (before ++ [c]) := by
  rw [TracksQuotes, List.count_append, List.count_singleton, if_neg (by simpa using unquoting)]
  exact tracks

end TracksQuotes

/-- Apart from quotes a line is cut into the pieces between the ends of its fields. -/
theorem map_withoutQuotes_splitFrom {quoted : Bool} {before rest : List Char}
    (tracks : TracksQuotes quoted before) :
    (splitFrom quoted rest).map withoutQuotes = (piecesAfter before rest).map withoutQuotes := by
  -- The reader takes one or two characters at a time; either way the parity is kept.
  fun_induction splitFrom quoted rest generalizing before with
  | case1 => rw [piecesAfter_nil]
  | case2 rest ih =>
      rw [map_withoutQuotes_consHead _ (splitFrom_ne_nil true rest), modifyHead_withoutQuotes_quote,
        map_withoutQuotes_piecesAfter_quote, map_withoutQuotes_piecesAfter_quote,
        ih tracks.quote.quote]
  | case3 quoted rest _ ih =>
      rw [map_withoutQuotes_piecesAfter_quote, ih tracks.quote]
  | case4 quoted c rest _ unquoting ends ih =>
      obtain ⟨rfl, rfl⟩ := ends
      rw [piecesAfter_cons, if_pos ⟨rfl, tracks.mp rfl⟩, List.map_cons, List.map_cons,
        ih (tracks.other unquoting)]
  | case5 quoted c rest _ unquoting inside ih =>
      have goesOn : ¬ (c = ',' ∧ Even (before.count '"')) :=
        fun ends => inside ⟨ends.1, tracks.mpr ends.2⟩
      rw [piecesAfter_cons, if_neg goesOn, map_withoutQuotes_modifyHead,
        map_withoutQuotes_consHead _ (splitFrom_ne_nil quoted rest), ih (tracks.other unquoting)]

/-- A line is cut at the commas with an even number of quotes before them, and apart from
quotes each field is its piece of the line: nothing else is lost, added or moved. -/
theorem splitFields_at_even_quotes (line : String) :
    let chars := line.toList
    let fields := (splitFields line).map String.toList
    fields.length = (fieldEnds chars).length + 1 ∧
      fields.map withoutQuotes = (fieldPieces chars).map withoutQuotes ∧
      [','].intercalate (fieldPieces chars) = chars ∧
      [','].intercalate (fields.map withoutQuotes) = withoutQuotes chars := by
  intro chars fields
  have read : fields.map withoutQuotes = (fieldPieces chars).map withoutQuotes := by
    have cut : fields = splitFrom false chars := by
      simp [fields, chars, splitFields, Function.comp_def]
    rw [cut, fieldPieces_eq_piecesAfter]
    exact map_withoutQuotes_splitFrom .start
  have count : fields.length = (fieldPieces chars).length := by
    simpa using congrArg List.length read
  have joined : [','].intercalate (fieldPieces chars) = chars := by
    rw [fieldPieces_eq_piecesAfter, intercalate_piecesAfter]
  refine ⟨count.trans (length_fieldPieces chars), read, joined, ?_⟩
  rw [read, ← withoutQuotes_intercalate, joined]

/-- Only the comma after two quotes ends a field; the third quote is never closed. -/
example : splitFields "a\"b,c\"d,\"e,f" = ["ab,cd", "e,f"] := by decide +kernel

end MetricRates.Csv
