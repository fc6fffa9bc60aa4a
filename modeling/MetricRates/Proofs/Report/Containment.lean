import MetricRates.Proofs.Report.Overwriting

/-!
# Outputs stay in their directories

A file name has no slash and is not made of dots, so a path that is joined from a directory
and a file name leads to the directory and from there to the file.  Every file that a report
writes is joined in this way from one of the directories that were asked for.
-/

namespace MetricRates.Report

open Disk

/-! ## Plain names in paths -/

namespace IsPlainName

variable {name : String}

theorem not_mem (plain : IsPlainName name) {c : Char} (other : isFileNameChar c = false) :
    c ∉ name.toList := by
  intro member
  rw [plain.chars c member] at other
  cases other

theorem ne_of_head {dotted : String} (plain : IsPlainName name)
    (head : dotted.toList.head? = some '.') : name ≠ dotted := by
  rintro rfl
  exact plain.head head

theorem staysPut_eq_false (plain : IsPlainName name) : staysPut name = false := by
  have filled : name.isEmpty = false := by
    rw [String.isEmpty_eq_false_iff]
    rintro rfl
    exact plain.ne_nil rfl
  rw [staysPut, filled, Bool.false_or, beq_eq_false_iff_ne]
  exact plain.ne_of_head rfl

/-- A plain name leads from a directory to what it names there. -/
theorem properSegments_join (plain : IsPlainName name) (directory : String) :
    properSegments (join directory name) = properSegments directory ++ [name] :=
  Disk.properSegments_join (plain.not_mem (by decide)) plain.staysPut_eq_false directory

/-- A plain name with an extension is plain. -/
theorem append_extension (plain : IsPlainName name) {extension : String}
    (listed : extension ∈ extensions) : IsPlainName (name ++ extension) := by
  have known : ∀ extension ∈ extensions, extension.toList.all isFileNameChar = true ∧
      extension.toList ≠ [] ∧ extension.toList.getLast? ≠ some '.' := by decide
  obtain ⟨chars, filled, last⟩ := known extension listed
  constructor
  · rw [String.toList_append]
    exact List.append_ne_nil_of_left_ne_nil plain.ne_nil _
  · intro c member
    rw [String.toList_append, List.mem_append] at member
    rcases member with ofName | ofExtension
    · exact plain.chars c ofName
    · exact List.all_eq_true.mp chars c ofExtension
  · rw [String.toList_append, List.head?_append_of_ne_nil _ plain.ne_nil]
    exact plain.head
  · rw [String.toList_append, List.getLast?_append_of_ne_nil _ filled]
    exact last

end IsPlainName

/-! ## The files of a report -/

/-- A path leads to a plain name in one of the directories of the outlets. -/
def StaysIn (outlets : Outlets) (path : String) : Prop :=
  ∃ directory file, some directory ∈ [outlets.charts, outlets.csv, outlets.json] ∧
    IsPlainName file ∧ path = join directory file ∧
    properSegments path = properSegments directory ++ [file]

theorem staysIn_join {outlets : Outlets} {directory : String}
    (listed : some directory ∈ [outlets.charts, outlets.csv, outlets.json]) (name : String)
    {extension : String} (known : extension ∈ extensions) :
    StaysIn outlets (join directory (fileStem name ++ extension)) := by
  have plain : IsPlainName (fileStem name ++ extension) :=
    (isPlainName_fileStem name).append_extension known
  exact ⟨directory, _, listed, plain, rfl, plain.properSegments_join directory⟩

theorem staysIn_of_ownPicture? {outlets : Outlets} {entry : Entry} {job : Job}
    (drawn : ownPicture? outlets entry = some job) : StaysIn outlets job.path := by
  unfold ownPicture? familyPicture? at drawn
  split at drawn
  · rename_i directory _ charts
    have listed : some directory ∈ [outlets.charts, outlets.csv, outlets.json] := by simp [charts]
    split at drawn
    · cases drawn
    · cases drawn
      exact staysIn_join listed entry.output.name (by decide)
  · cases drawn

theorem staysIn_of_textJob? {outlets : Outlets} {directory : Option String}
    (listed : directory ∈ [outlets.charts, outlets.csv, outlets.json]) (name text : String)
    {extension : String} (known : extension ∈ extensions) {job : Job}
    (written : textJob? directory (fileStem name ++ extension) text = some job) :
    StaysIn outlets job.path := by
  obtain ⟨directory, rfl, rfl⟩ := Option.map_eq_some_iff.mp written
  exact staysIn_join listed name known

theorem staysIn_of_mem_familyJobs {outlets : Outlets} {entry : Entry} {job : Job}
    (listed : job ∈ familyJobs outlets entry) : StaysIn outlets job.path := by
  rw [familyJobs, exportJobs, List.mem_append, List.mem_append, Option.mem_toList,
    Option.mem_toList, Option.mem_toList] at listed
  rcases listed with picture | csv | json
  · exact staysIn_of_ownPicture? picture
  · exact staysIn_of_textJob? (by simp) entry.output.name _ (by decide) csv
  · exact staysIn_of_textJob? (by simp) entry.output.name _ (by decide) json

theorem staysIn_of_mem_groupJobs {outlets : Outlets} {entries : List Entry} {job : Job}
    (listed : job ∈ groupJobs outlets entries) : StaysIn outlets job.path := by
  unfold groupJobs at listed
  cases charts : outlets.charts with
  | none => simp [charts] at listed
  | some directory =>
      have known : some directory ∈ [outlets.charts, outlets.csv, outlets.json] := by simp [charts]
      rw [charts] at listed
      obtain ⟨group, -, drawn⟩ := List.mem_filterMap.mp listed
      unfold groupPicture? at drawn
      split at drawn
      · cases drawn
      · cases drawn
        exact staysIn_join known group (by decide)

/-- Every job of a report has its file in one of the directories of the outlets. -/
theorem staysIn_of_mem_reportJobs {outlets : Outlets} {results : List (FamilyPlan × Derived)}
    {job : Job} (listed : job ∈ reportJobs outlets results) : StaysIn outlets job.path := by
  rcases List.mem_append.mp listed with ofFamily | ofGroup
  · obtain ⟨⟨plan, cause | output⟩, -, ofResult⟩ := List.mem_flatMap.mp ofFamily
    · exact absurd ofResult List.not_mem_nil
    · exact staysIn_of_mem_familyJobs ofResult
  · exact staysIn_of_mem_groupJobs ofGroup

theorem ensures_staysIn (answers : Answers) (outlets : Outlets)
    (results : List (FamilyPlan × Derived)) :
    Ensures (reportResults answers.host outlets results) fun deeds _ =>
      ∀ path ∈ writtenPaths deeds, StaysIn outlets path := by
  apply (ensures_reportResults outlets results).imp
  intro deeds outcome handled path written
  obtain ⟨job, listed, rfl⟩ := List.mem_map.mp (handled.writtenFor.paths.mem written)
  exact staysIn_of_mem_reportJobs listed

/-- Whatever a family is called, its file name is plain: it is not empty, has only letters,
digits, dashes, underscores and dots, and no dot at either end, so it is neither a path nor
a way up.  The plain names are those that are kept, so making a file name twice is making
it once.  Every file that a report writes, whatever the disk answers, is in one of the
directories that were asked for. -/
theorem fileStem_never_escapes (family : String) :
    IsPlainName (fileStem family) ∧
      (∀ c ∈ (fileStem family).toList, ('A' ≤ c ∧ c ≤ 'Z') ∨ ('a' ≤ c ∧ c ≤ 'z') ∨
        ('0' ≤ c ∧ c ≤ '9') ∨ c = '-' ∨ c = '_' ∨ c = '.') ∧
      '/' ∉ (fileStem family).toList ∧ '\\' ∉ (fileStem family).toList ∧
      fileStem family ≠ "." ∧ fileStem family ≠ ".." ∧
      (∀ name, fileStem name = name ↔ IsPlainName name) ∧
      fileStem (fileStem family) = fileStem family ∧
      ∀ (answers : Answers) outlets results,
        Ensures (reportResults answers.host outlets results) fun deeds _ =>
          ∀ path ∈ writtenPaths deeds, StaysIn outlets path := by
  have plain : IsPlainName (fileStem family) := isPlainName_fileStem family
  have chars : ∀ c ∈ (fileStem family).toList, isFileNameChar c := plain.chars
  simp only [isFileNameChar_iff] at chars
  exact ⟨plain, chars, plain.not_mem (by decide), plain.not_mem (by decide),
    plain.ne_of_head rfl, plain.ne_of_head rfl, fun name => fileStem_eq_iff, plain.fileStem_eq,
    ensures_staysIn⟩

/-- Dots at the ends go, and what is no letter of a file name becomes a dash. -/
example : fileStem "../été." = "--t-" := by decide +kernel

end MetricRates.Report
