import MetricRates.Command.Value
import MetricRates.Proofs.Table.Arrangement
import MetricRates.Proofs.Text.Cut
import MetricRates.Proofs.Text.Trimmed

/-!
# Lists of labels

A list of labels is refused when it is blank and when one of its parts is; else its parts
are the labels, trimmed and each listed once.  The lists that can be read are exactly
those whose labels are distinct, trimmed, not empty and free of commas: such a list is
read back from its labels with commas between them.
-/

namespace MetricRates.Command

open Text

/-! ## Parts between commas -/

/-- The parts of a text between its commas. -/
def commaParts (text : String) : List (List Char) :=
  text.toList.splitOn ','

theorem labelParts_eq (text : String) :
    labelParts text = (commaParts text).map fun part => trim (String.ofList part) := by
  rw [labelParts, cutAt_eq_splitOn]
  simp [commaParts, trim]

theorem trim_ofList_eq_empty_iff {part : List Char} :
    trim (String.ofList part) = "" ↔ allBlank part := by
  rw [← trimChars_eq_nil_iff, ← String.toList_inj, toList_trim, String.toList_ofList]
  rfl

theorem any_isEmpty_labelParts {text : String} :
    (labelParts text).any String.isEmpty ↔ ∃ part ∈ commaParts text, allBlank part := by
  simp [labelParts_eq, trim_ofList_eq_empty_iff]

theorem comma_not_mem_of_mem_commaParts {text : String} {part : List Char}
    (listed : part ∈ commaParts text) : ',' ∉ part := by
  rw [commaParts, ← cutAt_eq_splitOn] at listed
  exact separator_not_mem_of_mem_cutAt listed

/-- A blank text has no comma, so it is its only part. -/
theorem exists_blank_of_allBlank {text : String} (blank : allBlank text.toList) :
    ∃ part ∈ commaParts text, allBlank part := by
  have single : commaParts text = [text.toList] := by
    apply List.splitOn_eq_singleton
    intro comma
    exact absurd (List.all_eq_true.mp blank ',' comma) (by decide)
  exact ⟨text.toList, single ▸ List.mem_singleton_self _, blank⟩

/-! ## Which lists are read -/

/-- A list is judged by its parts between commas. -/
theorem readLabels_eq (text : String) :
    readLabels text =
      if allBlank text.toList then .error .emptyLabelList
      else if ∃ part ∈ commaParts text, allBlank part then .error (.emptyLabel text)
      else .ok ((commaParts text).map fun part => trim (String.ofList part)).eraseDups := by
  rw [readLabels, ← labelParts_eq]
  simp only [any_isEmpty_labelParts]

theorem readLabels_eq_emptyLabelList_iff {text : String} :
    readLabels text = .error .emptyLabelList ↔ allBlank text.toList := by
  rw [readLabels_eq]
  by_cases blank : allBlank text.toList
  · simp [blank]
  · rw [if_neg blank]
    split <;> simp [blank]

theorem readLabels_eq_emptyLabel_iff {text value : String} :
    readLabels text = .error (.emptyLabel value) ↔
      value = text ∧ ¬ allBlank text.toList ∧ ∃ part ∈ commaParts text, allBlank part := by
  rw [readLabels_eq]
  by_cases blank : allBlank text.toList
  · simp [blank]
  · rw [if_neg blank]
    by_cases blankPart : ∃ part ∈ commaParts text, allBlank part
    · rw [if_pos blankPart, Except.error.injEq, ValueError.emptyLabel.injEq, eq_comm]
      exact (and_iff_left ⟨blank, blankPart⟩).symm
    · rw [if_neg blankPart]
      exact ⟨nofun, fun refused => absurd refused.2.2 blankPart⟩

theorem readLabels_eq_ok_iff {text : String} {labels : List String} :
    readLabels text = .ok labels ↔
      (∀ part ∈ commaParts text, ¬ allBlank part) ∧
        labels = ((commaParts text).map fun part => trim (String.ofList part)).eraseDups := by
  have visible : (∀ part ∈ commaParts text, ¬ allBlank part) ↔
      ¬ ∃ part ∈ commaParts text, allBlank part := by
    simp
  rw [readLabels_eq, visible]
  by_cases blankPart : ∃ part ∈ commaParts text, allBlank part
  · rw [if_pos blankPart]
    split <;> exact ⟨nofun, fun read => absurd blankPart read.1⟩
  · have notBlank : ¬ allBlank text.toList := mt exists_blank_of_allBlank blankPart
    rw [if_neg notBlank, if_neg blankPart, Except.ok.injEq, eq_comm]
    exact (and_iff_right blankPart).symm

/-! ## The lists that can be read -/

/-- A label is not empty, has no blanks at its ends and no comma. -/
structure IsLabel (label : String) : Prop where
  ne_empty : label ≠ ""
  trimmed : SolidEnds label.toList
  no_comma : ',' ∉ label.toList

/-- At least one label, and none of them twice. -/
structure IsLabelList (labels : List String) : Prop where
  ne_nil : labels ≠ []
  distinct : labels.Nodup
  isLabel : ∀ label ∈ labels, IsLabel label

theorem isLabel_trim {text : String} {part : List Char} (listed : part ∈ commaParts text)
    (visible : ¬ allBlank part) : IsLabel (trim (String.ofList part)) where
  ne_empty := mt trim_ofList_eq_empty_iff.mp visible
  trimmed := by
    rw [toList_trim]
    exact solidEnds_trimChars _
  no_comma := by
    rw [toList_trim, String.toList_ofList]
    exact mt mem_of_mem_trimChars (comma_not_mem_of_mem_commaParts listed)

theorem isLabelList_of_readLabels {text : String} {labels : List String}
    (read : readLabels text = .ok labels) : IsLabelList labels := by
  obtain ⟨visible, rfl⟩ := readLabels_eq_ok_iff.mp read
  refine ⟨?_, nodup_eraseDups _, fun label listed => ?_⟩
  · obtain ⟨part, listed⟩ := List.exists_mem_of_ne_nil _ (List.splitOn_ne_nil ',' text.toList)
    exact List.ne_nil_of_mem (List.mem_eraseDups.mpr (List.mem_map_of_mem listed))
  · obtain ⟨part, inText, rfl⟩ := List.mem_map.mp (List.mem_eraseDups.mp listed)
    exact isLabel_trim inText (visible part inText)

namespace IsLabel

variable {label : String}

theorem trim_eq (isLabel : IsLabel label) : trim label = label := by
  rw [trim, isLabel.trimmed.trimChars_eq, String.ofList_toList]

theorem not_allBlank (isLabel : IsLabel label) : ¬ allBlank label.toList := by
  rw [← trim_ofList_eq_empty_iff, String.ofList_toList, isLabel.trim_eq]
  exact isLabel.ne_empty

end IsLabel

/-- The parts of labels with commas between them are the labels. -/
theorem commaParts_intercalate {labels : List String} (isList : IsLabelList labels) :
    commaParts (",".intercalate labels) = labels.map String.toList := by
  rw [commaParts, String.toList_intercalate]
  apply List.splitOn_intercalate
  · intro part listed
    obtain ⟨label, inList, rfl⟩ := List.mem_map.mp listed
    exact (isList.isLabel label inList).no_comma
  · exact mt List.map_eq_nil_iff.mp isList.ne_nil

theorem readLabels_intercalate {labels : List String} (isList : IsLabelList labels) :
    readLabels (",".intercalate labels) = .ok labels := by
  rw [readLabels_eq_ok_iff, commaParts_intercalate isList]
  constructor
  · intro part listed
    obtain ⟨label, inList, rfl⟩ := List.mem_map.mp listed
    exact (isList.isLabel label inList).not_allBlank
  · have same : (labels.map String.toList).map (fun part => trim (String.ofList part)) =
        labels.map id := by
      rw [List.map_map]
      apply List.map_congr_left
      intro label inList
      rw [Function.comp_apply, String.ofList_toList, (isList.isLabel label inList).trim_eq, id]
    rw [same, List.map_id, eraseDups_of_nodup isList.distinct]

/-- A text is a list of labels when no part between its commas is blank, and the lists that
are read are those that are read from their own labels. -/
theorem readLabels_exact (text : String) (labels : List String) :
    (readLabels text = .error .emptyLabelList ↔ allBlank text.toList) ∧
    (∀ value, readLabels text = .error (.emptyLabel value) ↔
      value = text ∧ ¬ allBlank text.toList ∧ ∃ part ∈ commaParts text, allBlank part) ∧
    (readLabels text = .ok labels ↔
      (∀ part ∈ commaParts text, ¬ allBlank part) ∧
        labels = ((commaParts text).map fun part => trim (String.ofList part)).eraseDups) ∧
    (IsLabelList labels ↔ ∃ given, readLabels given = .ok labels) ∧
    (IsLabelList labels ↔ readLabels (",".intercalate labels) = .ok labels) := by
  refine ⟨readLabels_eq_emptyLabelList_iff, fun _ => readLabels_eq_emptyLabel_iff,
    readLabels_eq_ok_iff, ⟨fun isList => ?_, ?_⟩, readLabels_intercalate, isLabelList_of_readLabels⟩
  · exact ⟨",".intercalate labels, readLabels_intercalate isList⟩
  · rintro ⟨given, read⟩
    exact isLabelList_of_readLabels read

end MetricRates.Command
