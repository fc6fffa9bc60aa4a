import Mathlib.Data.List.DropRight
import MetricRates.Csv.Fields
import MetricRates.Text.Blank

/-!
# Written fields are read back

A field is written bare, or between quotes with its own quotes doubled.  Cutting a
line of written fields gives these fields, whatever characters they hold.  A written
line holds every character of its fields, has a newline only where a field has one,
and never ends with a line break.
-/

namespace MetricRates.Csv

open Text

/-! ## One written field -/

theorem consHead_eq_modifyHead (c : Char) {fields : List (List Char)} (nonempty : fields ≠ []) :
    consHead c fields = fields.modifyHead (c :: ·) := by
  cases fields with
  | nil => exact absurd rfl nonempty
  | cons field fields => rfl

theorem consHead_splitFrom_modifyHead (c : Char) (quoted : Bool) (cs field : List Char) :
    consHead c ((splitFrom quoted cs).modifyHead (field ++ ·)) =
      (splitFrom quoted cs).modifyHead (c :: field ++ ·) := by
  have nonempty : (splitFrom quoted cs).modifyHead (field ++ ·) ≠ [] := by
    simpa using splitFrom_ne_nil quoted cs
  rw [consHead_eq_modifyHead c nonempty, List.modifyHead_modifyHead]
  rfl

theorem splitFrom_cons_of_plain {c : Char} (unquoting : c ≠ '"') {quoted : Bool}
    (inside : c ≠ ',' ∨ quoted = true) (rest : List Char) :
    splitFrom quoted (c :: rest) = consHead c (splitFrom quoted rest) := by
  rw [splitFrom.eq_def]
  cases quoted <;> simp_all

/-- A bare field is taken as it stands. -/
theorem splitFrom_append_of_bare {field : List Char} (bare : needsQuotes field = false)
    (rest : List Char) :
    splitFrom false (field ++ rest) = (splitFrom false rest).modifyHead (field ++ ·) := by
  induction field with
  | nil => exact (congrFun List.modifyHead_id (splitFrom false rest)).symm
  | cons c field ih =>
      simp only [needsQuotes, List.any_cons, Bool.or_eq_false_iff, beq_eq_false_iff_ne] at bare ih
      obtain ⟨⟨⟨⟨comma, quote⟩, -⟩, -⟩, bare⟩ := bare
      rw [List.cons_append, splitFrom_cons_of_plain quote (.inl comma), ih bare,
        consHead_splitFrom_modifyHead]

/-- Inside quotes a doubled quote is read as one, up to the closing quote. -/
theorem splitFrom_doubleQuotes_append (field : List Char) {rest : List Char}
    (closed : rest.head? ≠ some '"') :
    splitFrom true (doubleQuotes field ++ '"' :: rest) =
      (splitFrom false rest).modifyHead (field ++ ·) := by
  induction field with
  | nil =>
      cases rest with
      | nil => rfl
      | cons c rest =>
          have other : c ≠ '"' := by simpa using closed
          have closing : splitFrom true ('"' :: c :: rest) = splitFrom false (c :: rest) := by
            rw [splitFrom.eq_def]
            simp [other]
          exact closing.trans (congrFun List.modifyHead_id (splitFrom false (c :: rest))).symm
  | cons c field ih =>
      by_cases quote : c = '"'
      · subst quote
        rw [doubleQuotes, if_pos rfl, List.cons_append, List.cons_append, splitFrom, ih,
          consHead_splitFrom_modifyHead]
      · rw [doubleQuotes, if_neg quote, List.cons_append, splitFrom_cons_of_plain quote (.inr rfl),
          ih, consHead_splitFrom_modifyHead]

/-- A written field is read back in front of what follows it. -/
theorem splitFrom_quoteChars_append (field : List Char) {rest : List Char}
    (closed : rest.head? ≠ some '"') :
    splitFrom false (quoteChars field ++ rest) =
      (splitFrom false rest).modifyHead (field ++ ·) := by
  unfold quoteChars
  split
  · rw [List.cons_append, List.append_assoc, List.singleton_append, splitFrom.eq_def]
    simpa using splitFrom_doubleQuotes_append field closed
  · rename_i bare
    exact splitFrom_append_of_bare (by simpa using bare) rest

/-! ## A written line -/

/-- The characters of the line of some fields. -/
def lineChars (fields : List (List Char)) : List Char :=
  [','].intercalate (fields.map quoteChars)

/-- The line of some fields. -/
def writeLine (fields : List String) : String :=
  joinFields (fields.map quoteField)

theorem toList_writeLine (fields : List String) :
    (writeLine fields).toList = lineChars (fields.map String.toList) := by
  rw [writeLine, joinFields, String.toList_intercalate, lineChars, List.map_map, List.map_map]
  simp [Function.comp_def, quoteField]

theorem lineChars_cons_cons (field next : List Char) (fields : List (List Char)) :
    lineChars (field :: next :: fields) =
      quoteChars field ++ ',' :: lineChars (next :: fields) := by
  simp [lineChars, List.intercalate_cons_cons]

/-- Cutting a written line gives the fields that were written. -/
theorem splitFrom_lineChars {fields : List (List Char)} (nonempty : fields ≠ []) :
    splitFrom false (lineChars fields) = fields := by
  induction fields with
  | nil => exact absurd rfl nonempty
  | cons field fields ih =>
      cases fields with
      | nil =>
          have closed : ([] : List Char).head? ≠ some '"' := nofun
          simpa [lineChars, splitFrom] using splitFrom_quoteChars_append field closed
      | cons next fields =>
          have comma (rest : List Char) :
              splitFrom false (',' :: rest) = [] :: splitFrom false rest := by
            rw [splitFrom.eq_def]
            simp
          rw [lineChars_cons_cons, splitFrom_quoteChars_append field (by simp), comma,
            ih (List.cons_ne_nil next fields)]
          simp

theorem splitFields_writeLine {fields : List String} (nonempty : fields ≠ []) :
    splitFields (writeLine fields) = fields := by
  rw [splitFields, toList_writeLine, splitFrom_lineChars (by simpa using nonempty), List.map_map]
  simp [Function.comp_def]

/-- Fields that are quoted where they have to be and put on one line are cut apart again.
Only no fields at all are not read back, since a line always has one. -/
theorem splitFields_quoted_iff (fields : List String) :
    splitFields (joinFields (fields.map quoteField)) = fields ↔ fields ≠ [] := by
  constructor
  · rintro read rfl
    exact absurd read (by decide)
  · exact splitFields_writeLine

/-! ## The characters of a written line -/

theorem mem_doubleQuotes {c : Char} {field : List Char} : c ∈ doubleQuotes field ↔ c ∈ field := by
  induction field with
  | nil => rfl
  | cons first field ih =>
      by_cases quote : first = '"' <;> simp [doubleQuotes, quote, ih]

theorem mem_quoteChars_of_mem {c : Char} {field : List Char} (member : c ∈ field) :
    c ∈ quoteChars field := by
  unfold quoteChars
  split <;> simp [mem_doubleQuotes, member]

theorem mem_of_mem_quoteChars {c : Char} {field : List Char} (other : c ≠ '"')
    (member : c ∈ quoteChars field) : c ∈ field := by
  unfold quoteChars at member
  split at member
  · simpa [mem_doubleQuotes, other] using member
  · exact member

theorem mem_lineChars_of_mem {c : Char} {field : List Char} {fields : List (List Char)}
    (listed : field ∈ fields) (member : c ∈ field) : c ∈ lineChars fields := by
  induction fields with
  | nil => exact absurd listed List.not_mem_nil
  | cons first fields ih =>
      cases fields with
      | nil =>
          obtain rfl := List.mem_singleton.mp listed
          simpa [lineChars] using mem_quoteChars_of_mem member
      | cons next fields =>
          rw [lineChars_cons_cons]
          rcases List.mem_cons.mp listed with rfl | later
          · exact List.mem_append_left _ (mem_quoteChars_of_mem member)
          · exact List.mem_append_right _ (List.mem_cons_of_mem _ (ih later))

/-- Besides commas and quotes a written line has only characters of its fields. -/
theorem mem_of_mem_lineChars {c : Char} {fields : List (List Char)} (notComma : c ≠ ',')
    (notQuote : c ≠ '"') (member : c ∈ lineChars fields) : ∃ field ∈ fields, c ∈ field := by
  induction fields with
  | nil => simp [lineChars] at member
  | cons first fields ih =>
      cases fields with
      | nil =>
          exact ⟨first, List.mem_singleton_self first,
            mem_of_mem_quoteChars notQuote (by simpa [lineChars] using member)⟩
      | cons next fields =>
          rw [lineChars_cons_cons, List.mem_append, List.mem_cons] at member
          rcases member with here | comma | later
          · exact ⟨first, List.mem_cons_self, mem_of_mem_quoteChars notQuote here⟩
          · exact absurd comma notComma
          · obtain ⟨field, listed, held⟩ := ih later
            exact ⟨field, List.mem_cons_of_mem _ listed, held⟩

/-- A line break at the end of a text. -/
def EndsLine (cs : List Char) : Prop :=
  ∃ c ∈ cs.getLast?, c = '\r' ∨ c = '\n'

theorem not_endsLine_quoteChars (field : List Char) : ¬ EndsLine (quoteChars field) := by
  rintro ⟨c, last, ends⟩
  unfold quoteChars at last
  split at last
  · have quote : '"' = c := by
      rw [← List.cons_append, List.getLast?_append] at last
      simpa using last
    subst quote
    rcases ends with same | same <;> exact absurd same (by decide)
  · rename_i bare
    have member := List.mem_of_getLast? last
    refine bare (List.any_eq_true.mpr ⟨c, member, ?_⟩)
    rcases ends with rfl | rfl <;> decide

theorem not_endsLine_lineChars (fields : List (List Char)) : ¬ EndsLine (lineChars fields) := by
  induction fields with
  | nil => simp [EndsLine, lineChars]
  | cons first fields ih =>
      cases fields with
      | nil => simpa [lineChars] using not_endsLine_quoteChars first
      | cons next fields =>
          rintro ⟨c, last, ends⟩
          rw [lineChars_cons_cons, List.getLast?_append, List.getLast?_cons] at last
          cases rest : (lineChars (next :: fields)).getLast? with
          | none =>
              have comma : ',' = c := by simpa [rest] using last
              subst comma
              rcases ends with same | same <;> exact absurd same (by decide)
          | some d => exact ih ⟨c, by simpa [rest] using last, ends⟩

end MetricRates.Csv
