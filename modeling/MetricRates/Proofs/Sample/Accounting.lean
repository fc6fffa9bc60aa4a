import MetricRates.Proofs.Results
import MetricRates.Proofs.Sample.Rows
import MetricRates.Proofs.Text.Cut

/-!
# Every row of a reading is accounted for

A reading depends on its lines that are not blank: the first of them is the header,
and each of the others is a row with one outcome.  The samples and the counts
follow from the outcomes.
-/

namespace MetricRates

open Text

/-! ## Outcomes -/

/-- The outcomes of the rows of a reading, in line order. -/
def Reading.outcomes (reading : Reading) : List RowOutcome :=
  reading.rows.map NumberedRow.outcome

/-- The outcomes of the rows of lines that are not blank. -/
def outcomesOf : List InputLine → Except InputError (List RowOutcome)
  | [] => .error .missingHeader
  | first :: rest =>
      (Header.ofFields (lineFields first.headerText)).map fun header => rest.map header.readLine

/-- The lines that are not blank. -/
def contentOf (lines : List InputLine) : List InputLine :=
  lines.filter fun line => !line.isBlank

theorem outcomes_readRows (header : Header) (lines : List (InputLine × Nat)) :
    (readRows header lines).outcomes = (contentOf (lines.map Prod.fst)).map header.readLine := by
  rw [contentOf, List.filter_map, List.map_map, readRows, Reading.outcomes, List.map_map]
  rfl

theorem readNumberedLines_outcomes (lines : List (InputLine × Nat)) :
    (readNumberedLines lines).map Reading.outcomes =
      outcomesOf (contentOf (lines.map Prod.fst)) := by
  induction lines with
  | nil => rfl
  | cons line rest ih =>
      rw [readNumberedLines, List.map_cons, contentOf]
      by_cases blank : line.1.isBlank
      · rw [if_pos blank, ih, List.filter_cons_of_neg (by simp [blank]), contentOf]
      · rw [if_neg blank, List.filter_cons_of_pos (by simp [blank]), outcomesOf, ← contentOf]
        cases Header.ofFields (lineFields line.1.headerText) with
        | error cause => rfl
        | ok header => simp [Except.map, outcomes_readRows]

/-- The outcomes of a reading are those of its lines that are not blank. -/
theorem readLines_outcomes (lines : List InputLine) :
    (readLines lines).map Reading.outcomes = outcomesOf (contentOf lines) := by
  rw [readLines, readNumberedLines_outcomes, List.zipIdx_map_fst]

namespace Reading

theorem samples_eq_filterMap_outcomes (reading : Reading) :
    reading.samples = reading.outcomes.filterMap RowOutcome.sample? := by
  rw [outcomes, List.filterMap_map]
  rfl

/-- The counts of a reading are those of its outcomes. -/
theorem report_eq_counts (reading : Reading) :
    reading.report =
      { rows := reading.outcomes.length
        accepted := (reading.outcomes.filterMap RowOutcome.sample?).length
        unparseableTimes := reading.outcomes.count .unparseableTime
        malformedRows := reading.outcomes.countP RowOutcome.isMalformed } := by
  simp only [report, samples_eq_filterMap_outcomes, List.count, outcomes, List.length_map,
    List.countP_map]
  rfl

end Reading

/-- Every outcome is counted once. -/
theorem length_eq_of_outcomes_counts (outcomes : List RowOutcome) :
    outcomes.length = (outcomes.filterMap RowOutcome.sample?).length +
      outcomes.count .unparseableTime + outcomes.countP RowOutcome.isMalformed := by
  induction outcomes with
  | nil => rfl
  | cons outcome rest ih =>
      simp only [List.count, List.countP_cons, List.filterMap_cons, List.length_cons] at ih ⊢
      cases outcome <;> simp [RowOutcome.sample?, RowOutcome.isMalformed] <;> omega

/-! ## The lines of a text -/

/-- The lines of a text that are not blank, without their line ends. -/
def contentLines (text : String) : List (List Char) :=
  ((text.toList.splitOn '\n').map stripLineEnd).filter fun line => !allBlank line

/-- The fields of a line. -/
def fieldsOf (line : List Char) : List String :=
  Csv.splitFields (String.ofList line)

/-- The outcomes of a text, from its content lines. -/
theorem readText_outcomes (text : String) :
    (readText text).map Reading.outcomes =
      match contentLines text with
      | [] => .error .missingHeader
      | first :: rest =>
          (Header.ofFields (fieldsOf first)).map fun header =>
            rest.map fun line => header.readRow (fieldsOf line) := by
  rw [readText, readLines_outcomes, linesOfText, cutAt_eq_splitOn, contentOf, List.filter_map,
    contentLines, List.filter_map]
  have same : (text.toList.splitOn '\n').filter ((fun line => !line.isBlank) ∘ InputLine.text) =
      (text.toList.splitOn '\n').filter ((fun line => !allBlank line) ∘ stripLineEnd) := rfl
  rw [same]
  cases (text.toList.splitOn '\n').filter ((fun line => !allBlank line) ∘ stripLineEnd) with
  | nil => rfl
  | cons first rest =>
      simp only [List.map_cons, outcomesOf, List.map_map]
      rfl

/-! ## The accounting -/

theorem Header.Judges.ne_illFormedText {header : Header} {fields : List String}
    {outcome : RowOutcome} (judges : header.Judges fields outcome) (validBytes : Nat) :
    outcome ≠ .illFormedText validBytes := by
  rintro rfl
  have accepted := judges.accepted
  have untimed := judges.unparseableTime
  have malformed := judges.malformed
  simp only [reduceCtorEq, false_iff] at accepted untimed malformed
  exact malformed ⟨accepted, untimed⟩

/-- The rows of a reading are judged line by line. -/
def Judged (header : Header) (lines : List (List Char)) (outcomes : List RowOutcome) : Prop :=
  List.Forall₂ (fun line outcome => header.Judges (fieldsOf line) outcome) lines outcomes

theorem countP_isMalformed_of_judged {header : Header} {lines : List (List Char)}
    {outcomes : List RowOutcome} (judged : Judged header lines outcomes) :
    outcomes.countP RowOutcome.isMalformed = outcomes.count .malformed := by
  induction judged with
  | nil => rfl
  | @cons line outcome _ _ judges _ ih =>
      rw [List.countP_cons, List.count_cons, ih]
      cases outcome with
      | illFormedText validBytes => exact absurd rfl (judges.ne_illFormedText validBytes)
      | _ => rfl

theorem readText_eq_missingHeader_iff {text : String} :
    readText text = .error .missingHeader ↔ contentLines text = [] := by
  rw [← map_eq_error_iff (f := Reading.outcomes), readText_outcomes]
  cases contentLines text with
  | nil => simp
  | cons first rest =>
      rcases Header.ofFields_outcome (fieldsOf first) with ⟨header, read, -⟩ | ⟨column, failed, -⟩
      · simp [read, Except.map]
      · simp [failed, Except.map]

/-- The first content line of a text is a header and the others are judged by it, or
the first column that it lacks is told. -/
theorem readText_of_contentLines {text : String} {first : List Char} {rest : List (List Char)}
    (content : contentLines text = first :: rest) :
    (∃ header reading, readText text = .ok reading ∧ header.Locates (fieldsOf first) ∧
        firstMissingColumn? (fieldsOf first) = none ∧ Judged header rest reading.outcomes) ∨
      ∃ column, readText text = .error (.missingColumn column) ∧
        firstMissingColumn? (fieldsOf first) = some column := by
  have outcomes := readText_outcomes text
  rw [content] at outcomes
  rcases Header.ofFields_outcome (fieldsOf first) with
    ⟨header, read, locates, complete⟩ | ⟨column, failed, missing⟩
  · cases given : readText text with
    | error cause => simp [given, read, Except.map] at outcomes
    | ok reading =>
        have rows : reading.outcomes = rest.map fun line => header.readRow (fieldsOf line) := by
          simpa [given, read, Except.map] using outcomes
        refine .inl ⟨header, reading, rfl, locates, complete, ?_⟩
        rw [Judged, rows, List.forall₂_map_right_iff, List.forall₂_same]
        exact fun line _ => header.judges_readRow (fieldsOf line)
  · have given : readText text = .error (.missingColumn column) := by
      rw [← map_eq_error_iff (f := Reading.outcomes), outcomes]
      simp [failed, Except.map]
    exact .inr ⟨column, given, missing⟩

/-- A text without content lines has no header.  Otherwise its first content line
is the header: the first required column that it does not name is told, or each
further content line is a row that is judged by what the header locates.  The
samples are those of the accepted rows, in line order, and every row is counted
once. -/
theorem readText_accounts_for_rows (text : String) :
    (readText text = .error .missingHeader ↔ contentLines text = []) ∧
      ∀ first rest, contentLines text = first :: rest →
        (∀ column, readText text = .error (.missingColumn column) ↔
            firstMissingColumn? (fieldsOf first) = some column) ∧
          ((∀ column ∈ requiredColumns, HasColumn (fieldsOf first) column) →
            ∃ (header : Header) (reading : Reading),
              header.Locates (fieldsOf first) ∧ readText text = .ok reading ∧
              Judged header rest reading.outcomes ∧
              reading.samples = reading.outcomes.filterMap RowOutcome.sample? ∧
              reading.report.rows = rest.length ∧
              reading.report.accepted = reading.samples.length ∧
              reading.report.unparseableTimes = reading.outcomes.count .unparseableTime ∧
              reading.report.malformedRows = reading.outcomes.count .malformed ∧
              reading.report.accepted + reading.report.unparseableTimes +
                reading.report.malformedRows = reading.report.rows) := by
  refine ⟨readText_eq_missingHeader_iff, fun first rest content => ?_⟩
  rcases readText_of_contentLines content with
    ⟨header, reading, given, locates, complete, judged⟩ | ⟨column, given, missing⟩
  · refine ⟨fun column => by simp [given, complete], fun _ => ?_⟩
    have counts := reading.report_eq_counts
    have samples := reading.samples_eq_filterMap_outcomes
    have total := length_eq_of_outcomes_counts reading.outcomes
    refine ⟨header, reading, locates, given, judged, samples, ?_, rfl, ?_, ?_, ?_⟩
    · rw [counts]
      exact judged.length_eq.symm
    · rw [counts]
    · rw [counts, countP_isMalformed_of_judged judged]
    · rw [counts]
      exact total.symm
  · refine ⟨fun other => by simp [given, missing], fun present => ?_⟩
    have lacks := List.find?_some missing
    exact absurd (present column (List.mem_of_find?_eq_some missing)) (of_decide_eq_true lacks)

/-- A text with blank lines, a header in an order of its own, a quoted comma, a time
that is none and a row that is too short. -/
def mixedText : String :=
  "\r\n Value ,label,TIME,name\n1.5,x, 5 ,\" a, b\"\r\n2,x,soon,a\n \n3,x\n"

/-- Of the three rows of `mixedText` the first is accepted, the second has no time
and the third is malformed. -/
theorem readText_accounts_for_rows_mixedText :
    let first := " Value ,label,TIME,name".toList
    let rest := ["1.5,x, 5 ,\" a, b\"".toList, "2,x,soon,a".toList, "3,x".toList]
    contentLines mixedText = first :: rest ∧
      (∀ column ∈ requiredColumns, HasColumn (fieldsOf first) column) ∧
      ∃ (header : Header) (reading : Reading), header.Locates (fieldsOf first) ∧
        readText mixedText = .ok reading ∧ Judged header rest reading.outcomes ∧
        reading.samples = [⟨"a, b", "x", .clamp 5, 1.5⟩] ∧ reading.report = ⟨3, 1, 1, 1⟩ := by
  intro first rest
  have content : contentLines mixedText = first :: rest := by decide +kernel
  have present : ∀ column ∈ requiredColumns, HasColumn (fieldsOf first) column := by
    decide +kernel
  obtain ⟨header, reading, locates, given, judged, -⟩ :=
    ((readText_accounts_for_rows mixedText).2 first rest content).2 present
  have samples : (readText mixedText).map Reading.samples =
      .ok [⟨"a, b", "x", .clamp 5, 1.5⟩] := by decide +kernel
  have report : (readText mixedText).map Reading.report = .ok ⟨3, 1, 1, 1⟩ := by decide +kernel
  rw [given] at samples report
  exact ⟨content, present, header, reading, locates, given, judged, Except.ok.inj samples,
    Except.ok.inj report⟩

end MetricRates
