import MetricRates.Proofs.Sample.Lines
import MetricRates.Proofs.Text.ByteOrder
import MetricRates.Report.Run

/-!
# Files and texts

The lines of a file are read one by one as bytes, those of a text as characters.
A file is read like the text of its legible lines: its header is read lossily, and
each later line that is no text is counted as a malformed row and otherwise left
out.  So a file that is a text is read like this text.
-/

namespace MetricRates

open Text

/-! ## Legible lines -/

/-- The bytes of a blank text. -/
def BlankBytes (bytes : List UInt8) : Prop :=
  ∃ cs : List Char, bytes = cs.flatMap String.utf8EncodeChar ∧ allBlank cs

theorem blankBytes_iff_any {bytes : List UInt8} :
    BlankBytes bytes ↔ (decodeUtf8? bytes).any allBlank := by
  simp only [BlankBytes, Option.any_eq_true, ← decodeUtf8?_eq_some_iff]

instance : DecidablePred BlankBytes := fun _ => decidable_of_iff _ blankBytes_iff_any.symm

/-- The lines of a file with their ends, up to its header, which is the first line
that is not the bytes of a blank text. -/
def headPieces (bytes : List UInt8) : List (List UInt8) :=
  let pieces := cutAfter 0x0A bytes
  pieces.takeWhile BlankBytes ++ (pieces.dropWhile BlankBytes).take 1

/-- The lines of a file with their ends, after its header. -/
def rowPieces (bytes : List UInt8) : List (List UInt8) :=
  ((cutAfter 0x0A bytes).dropWhile BlankBytes).drop 1

/-- The lines of a file, up to its header and then those that are texts. -/
def legiblePieces (bytes : List UInt8) : List (List UInt8) :=
  headPieces bytes ++ (rowPieces bytes).filter WellFormed

/-- The legible lines of a file as a text.  Lossy reading matters for the header alone:
all other lines are the bytes of texts and are read as these. -/
def legibleText (bytes : List UInt8) : String :=
  String.ofList ((legiblePieces bytes).flatMap decodeUtf8Lossy)

/-- How many lines after the header are no texts. -/
def illegibleRows (bytes : List UInt8) : Nat :=
  (rowPieces bytes).countP fun piece => ¬ WellFormed piece

theorem headPieces_append_rowPieces (bytes : List UInt8) :
    headPieces bytes ++ rowPieces bytes = cutAfter 0x0A bytes := by
  rw [headPieces, rowPieces, List.append_assoc, List.take_append_drop,
    List.takeWhile_append_dropWhile]

theorem legiblePieces_sublist (bytes : List UInt8) :
    (legiblePieces bytes).Sublist (cutAfter 0x0A bytes) := by
  rw [← headPieces_append_rowPieces]
  exact List.Sublist.append_left List.filter_sublist _

/-- The legible text is cut into the legible lines again. -/
theorem cutAfter_legibleText (bytes : List UInt8) :
    cutAfter '\n' (legibleText bytes).toList = (legiblePieces bytes).map decodeUtf8Lossy := by
  rw [cutAfter_eq_iff, legibleText, String.toList_ofList, List.flatMap]
  refine ⟨?_, rfl⟩
  refine ((pieces_cutAfter 0x0A bytes).sublist (legiblePieces_sublist bytes)).map ?_ ?_ ?_
  · exact fun piece => decodeUtf8Lossy_ne_nil
  · exact fun piece => newline_mem_decodeUtf8Lossy_iff.mp
  · exact fun piece => by simp [decodeUtf8Lossy_append_newline]

/-! ## Reading files -/

/-- The line of some bytes, read lossily. -/
def InputLine.ofBytesLossy (bytes : List UInt8) : InputLine :=
  .text (decodeUtf8Lossy bytes)

theorem InputLine.ofBytes_eq_text {bytes : List UInt8} (wellFormed : WellFormed bytes) :
    InputLine.ofBytes bytes = .ofBytesLossy bytes := by
  obtain ⟨cs, decoded⟩ := Option.isSome_iff_exists.mp (wellFormed_iff_isSome.mp wellFormed)
  rw [ofBytes, decoded, ofBytesLossy, decodeUtf8Lossy_eq_of_decodeUtf8? decoded]

theorem InputLine.ofBytes_eq_illFormed {bytes : List UInt8} (illFormed : ¬ WellFormed bytes) :
    InputLine.ofBytes bytes = .illFormed (validUpTo bytes) (decodeUtf8Lossy bytes) := by
  rw [ofBytes, decodeUtf8?_eq_none_iff.mpr illFormed]

/-- Whether a row is no text. -/
def RowOutcome.isIllegible : RowOutcome → Bool
  | .illFormedText _ => true
  | _ => false

theorem isBlank_ofBytes (bytes : List UInt8) :
    (InputLine.ofBytes bytes).isBlank = decide (BlankBytes bytes) := by
  rw [InputLine.ofBytes]
  simp only [blankBytes_iff_any]
  cases decodeUtf8? bytes <;> simp [InputLine.isBlank, allBlank_stripLineEnd]

theorem wellFormed_of_blankBytes {bytes : List UInt8} (blank : BlankBytes bytes) :
    WellFormed bytes := by
  obtain ⟨cs, written, -⟩ := blank
  exact ⟨cs, written⟩

theorem isBlank_ofBytesLossy (bytes : List UInt8) :
    (InputLine.ofBytesLossy bytes).isBlank = decide (BlankBytes bytes) := by
  by_cases wellFormed : WellFormed bytes
  · rw [← InputLine.ofBytes_eq_text wellFormed, isBlank_ofBytes]
  · -- The replacement character is not blank.
    have replaced : '\uFFFD' ∈ decodeUtf8Lossy bytes :=
      replacement_mem_decodeUtf8Lossy (decodeUtf8?_eq_none_iff.mpr wellFormed)
    have visible : allBlank (decodeUtf8Lossy bytes) = false := by
      rw [allBlank, List.all_eq_false]
      exact ⟨_, replaced, by decide⟩
    rw [InputLine.ofBytesLossy, InputLine.isBlank, allBlank_stripLineEnd, visible]
    exact (decide_eq_false (mt wellFormed_of_blankBytes wellFormed)).symm

theorem headerText_ofBytes (bytes : List UInt8) :
    (InputLine.ofBytes bytes).headerText = decodeUtf8Lossy bytes := by
  by_cases wellFormed : WellFormed bytes
  · rw [InputLine.ofBytes_eq_text wellFormed]
    rfl
  · rw [InputLine.ofBytes_eq_illFormed wellFormed]
    rfl

/-- A row is illegible exactly when its line is no text. -/
theorem isIllegible_readLine_ofBytes (header : Header) (bytes : List UInt8) :
    (header.readLine (InputLine.ofBytes bytes)).isIllegible = decide (¬ WellFormed bytes) := by
  by_cases wellFormed : WellFormed bytes
  · rw [InputLine.ofBytes_eq_text wellFormed, InputLine.ofBytesLossy, Header.readLine]
    cases outcome : header.readRow (lineFields (decodeUtf8Lossy bytes)) with
    | illFormedText validBytes => exact absurd outcome (header.readRow_ne_illFormedText _ _)
    | _ => simp [RowOutcome.isIllegible, wellFormed]
  · rw [InputLine.ofBytes_eq_illFormed wellFormed]
    simp [Header.readLine, RowOutcome.isIllegible, wellFormed]

theorem contentOf_map {value : List UInt8 → InputLine}
    (blank : ∀ piece, (value piece).isBlank = decide (BlankBytes piece))
    (pieces : List (List UInt8)) :
    contentOf (pieces.map value) = (pieces.filter fun piece => ¬ BlankBytes piece).map value := by
  rw [contentOf, List.filter_map]
  simp [Function.comp_def, blank]

/-- Either all lines are blank, or the header is the only line up to it that counts. -/
theorem filter_headPieces (bytes : List UInt8) :
    ((headPieces bytes).filter (fun piece => ¬ BlankBytes piece) = [] ∧ rowPieces bytes = []) ∨
      ∃ header, (headPieces bytes).filter (fun piece => ¬ BlankBytes piece) = [header] := by
  have blank : ((cutAfter 0x0A bytes).takeWhile BlankBytes).filter
      (fun piece => ¬ BlankBytes piece) = [] := by
    rw [List.filter_eq_nil_iff]
    intro piece member
    simpa using List.mem_takeWhile_imp member
  simp only [headPieces, rowPieces, List.filter_append, blank, List.nil_append]
  cases dropped : (cutAfter 0x0A bytes).dropWhile BlankBytes with
  | nil => exact .inl ⟨rfl, rfl⟩
  | cons header rows =>
      have visible := List.head?_dropWhile_not (fun piece => decide (BlankBytes piece))
        (cutAfter 0x0A bytes)
      rw [dropped] at visible
      exact .inr ⟨header, by simpa using visible⟩

/-- The outcomes of the rows of a file that has a header. -/
theorem outcomes_rowPieces (header : Header) (rows : List (List UInt8)) :
    let outcomes := (rows.filter fun piece => ¬ BlankBytes piece).map fun piece =>
      header.readLine (InputLine.ofBytes piece)
    (((rows.filter WellFormed).filter fun piece => ¬ BlankBytes piece).map fun piece =>
        header.readLine (.ofBytesLossy piece)) =
        outcomes.filter (fun outcome => !outcome.isIllegible) ∧
      outcomes.countP RowOutcome.isIllegible = rows.countP fun piece => ¬ WellFormed piece := by
  intro outcomes
  constructor
  · have legible : outcomes.filter (fun outcome => !outcome.isIllegible) =
        ((rows.filter fun piece => ¬ BlankBytes piece).filter WellFormed).map fun piece =>
          header.readLine (InputLine.ofBytes piece) := by
      rw [List.filter_map]
      simp only [Function.comp_def, isIllegible_readLine_ofBytes, decide_not, Bool.not_not]
    rw [legible, List.filter_comm]
    refine List.map_congr_left fun piece member => ?_
    have wellFormed : WellFormed piece := by
      simpa using (List.mem_filter.mp member).2
    rw [InputLine.ofBytes_eq_text wellFormed]
  · rw [List.countP_map, List.countP_filter]
    refine List.countP_congr fun piece _ => ?_
    have blank : BlankBytes piece → WellFormed piece := wellFormed_of_blankBytes
    simp [isIllegible_readLine_ofBytes]
    tauto

theorem outcomesOf_map {value : List UInt8 → InputLine}
    (headerText : ∀ piece, (value piece).headerText = decodeUtf8Lossy piece)
    (first : List UInt8) (rows : List (List UInt8)) :
    outcomesOf ((first :: rows).map value) =
      (Header.ofFields (lineFields (decodeUtf8Lossy first))).map fun header =>
        rows.map fun piece => header.readLine (value piece) := by
  simp only [List.map_cons, outcomesOf, headerText, List.map_map, Function.comp_def]

theorem readText_legibleText_outcomes (bytes : List UInt8) :
    (readText (legibleText bytes)).map Reading.outcomes =
      outcomesOf (contentOf ((legiblePieces bytes).map InputLine.ofBytesLossy)) := by
  rw [readText_eq_readLines_cutAfter, readLines_outcomes, cutAfter_legibleText, List.map_map]
  rfl

/-- A file and the text of its legible lines fail alike, or the rows of the text are
the legible ones of the file. -/
theorem readBytes_readText_legibleText (bytes : List UInt8) :
    (∃ cause, readBytes bytes = .error cause ∧ readText (legibleText bytes) = .error cause) ∨
      ∃ file text : Reading, readBytes bytes = .ok file ∧
        readText (legibleText bytes) = .ok text ∧
        text.outcomes = file.outcomes.filter (fun outcome => !outcome.isIllegible) ∧
        file.outcomes.countP RowOutcome.isIllegible = illegibleRows bytes := by
  have fileOutcomes := readLines_outcomes ((cutAfter 0x0A bytes).map InputLine.ofBytes)
  rw [← readBytes_eq_readLines_cutAfter] at fileOutcomes
  have textOutcomes := readText_legibleText_outcomes bytes
  rw [← headPieces_append_rowPieces, contentOf_map isBlank_ofBytes, List.filter_append]
    at fileOutcomes
  rw [legiblePieces, contentOf_map isBlank_ofBytesLossy, List.filter_append] at textOutcomes
  rcases filter_headPieces bytes with ⟨head, rows⟩ | ⟨first, head⟩
  · rw [head, rows] at fileOutcomes textOutcomes
    exact .inl ⟨.missingHeader, map_eq_error_iff.mp fileOutcomes, map_eq_error_iff.mp textOutcomes⟩
  · rw [head, List.singleton_append] at fileOutcomes textOutcomes
    rw [outcomesOf_map headerText_ofBytes] at fileOutcomes
    rw [outcomesOf_map fun _ => rfl] at textOutcomes
    cases read : Header.ofFields (lineFields (decodeUtf8Lossy first)) with
    | error cause =>
        rw [read] at fileOutcomes textOutcomes
        exact .inl ⟨cause, map_eq_error_iff.mp fileOutcomes, map_eq_error_iff.mp textOutcomes⟩
    | ok header =>
        rw [read] at fileOutcomes textOutcomes
        obtain ⟨file, given, outcomes⟩ := map_eq_ok_iff.mp fileOutcomes
        obtain ⟨text, givenToo, legible⟩ := map_eq_ok_iff.mp textOutcomes
        refine .inr ⟨file, text, given, givenToo, ?_⟩
        rw [outcomes, legible]
        exact outcomes_rowPieces header (rowPieces bytes)

/-! ## Reports -/

/-- A report with more malformed rows. -/
def ReadReport.withMalformed (report : ReadReport) (count : Nat) : ReadReport :=
  { report with
    rows := report.rows + count
    malformedRows := report.malformedRows + count }

section Counts

variable (outcomes : List RowOutcome)

theorem filterMap_sample?_filter :
    (outcomes.filter fun outcome => !outcome.isIllegible).filterMap RowOutcome.sample? =
      outcomes.filterMap RowOutcome.sample? := by
  rw [List.filterMap_filter]
  congr 1
  funext outcome
  cases outcome <;> rfl

theorem length_filter_add_countP_isIllegible :
    (outcomes.filter fun outcome => !outcome.isIllegible).length +
      outcomes.countP RowOutcome.isIllegible = outcomes.length := by
  rw [List.length_eq_countP_add_countP RowOutcome.isIllegible (l := outcomes),
    ← List.countP_eq_length_filter, Nat.add_comm]
  simp

theorem countP_isMalformed_filter_add :
    (outcomes.filter fun outcome => !outcome.isIllegible).countP RowOutcome.isMalformed +
      outcomes.countP RowOutcome.isIllegible = outcomes.countP RowOutcome.isMalformed := by
  rw [List.countP_eq_countP_filter_add outcomes RowOutcome.isMalformed
    fun outcome => !outcome.isIllegible]
  congr 1
  rw [List.countP_filter]
  congr 1
  funext outcome
  cases outcome <;> rfl

/-- Illegible rows leave no sample and count as malformed. -/
theorem report_of_legible {file text : Reading}
    (legible : text.outcomes = file.outcomes.filter fun outcome => !outcome.isIllegible) :
    file.samples = text.samples ∧
      file.report = text.report.withMalformed (file.outcomes.countP RowOutcome.isIllegible) := by
  have samples : file.samples = text.samples := by
    rw [file.samples_eq_filterMap_outcomes, text.samples_eq_filterMap_outcomes, legible,
      filterMap_sample?_filter]
  refine ⟨samples, ?_⟩
  rw [file.report_eq_counts, text.report_eq_counts, legible, ReadReport.withMalformed,
    filterMap_sample?_filter, List.count_filter rfl, length_filter_add_countP_isIllegible,
    countP_isMalformed_filter_add]

end Counts

/-! ## Files that are texts -/

theorem ofBytes_flatMap_utf8EncodeChar (cs : List Char) :
    InputLine.ofBytes (cs.flatMap String.utf8EncodeChar) = .text cs := by
  rw [InputLine.ofBytes, decodeUtf8?_eq_some_iff.mpr rfl]

theorem newline_mem_utf8EncodeChar {c : Char} (member : 0x0A ∈ String.utf8EncodeChar c) :
    c = '\n' := by
  have decoded : decodeUtf8? (String.utf8EncodeChar c) = some [c] :=
    decodeUtf8?_eq_some_iff.mpr (by simp)
  have read := newline_mem_decodeUtf8Lossy_iff.mpr member
  rw [decodeUtf8Lossy_eq_of_decodeUtf8? decoded] at read
  exact (List.mem_singleton.mp read).symm

/-- The lines of the bytes of a text are the lines of the text. -/
theorem linesOfBytes_toUTF8 (text : String) :
    linesOfBytes text.toUTF8.data.toList = linesOfText text := by
  have newline : String.utf8EncodeChar '\n' = [0x0A] := rfl
  rw [linesOfBytes, linesOfText, toList_toUTF8,
    cutAt_flatMap newline fun _ => newline_mem_utf8EncodeChar, List.map_map]
  exact List.map_congr_left fun piece _ => ofBytes_flatMap_utf8EncodeChar piece

/-- A file that is a text is read like this text. -/
theorem readBytes_toUTF8 (text : String) : readBytes text.toUTF8.data.toList = readText text := by
  rw [readBytes, linesOfBytes_toUTF8, readText]

/-! ## Reading from the disk -/

/-- Reading a file that can be opened is reading its bytes. -/
theorem readSamples_world {world : Disk.World} {path : String} {bytes : List UInt8}
    (stored : world.tree.readFile path = .ok bytes) :
    ((Report.readSamples Disk.Host.world path).run world).1 = readBytes bytes := by
  have opened : (Disk.Host.world.readFile path).run world = (.ok bytes, world) :=
    congrArg (fun result => (result, world)) stored
  rw [Report.readSamples, StateT.run_bind, opened]
  dsimp only [bind, pure]
  cases readBytes bytes with
  | error cause => rfl
  | ok reading => rfl

/-- The samples and the report of a file are those of the text of its legible lines,
with each illegible row counted as malformed; a file that is a text is read like this
text. -/
theorem readSamples_eq_readText_legibleText {world : Disk.World} {path : String}
    {bytes : List UInt8} (stored : world.tree.readFile path = .ok bytes) :
    let result := ((Report.readSamples Disk.Host.world path).run world).1
    (result.map fun reading => (reading.samples, reading.report)) =
        ((readText (legibleText bytes)).map fun reading =>
          (reading.samples, reading.report.withMalformed (illegibleRows bytes))) ∧
      ∀ text : String, bytes = text.toUTF8.data.toList → result = readText text := by
  intro result
  have read : result = readBytes bytes := readSamples_world stored
  rw [read]
  constructor
  · rcases readBytes_readText_legibleText bytes with
      ⟨cause, failed, failedToo⟩ | ⟨file, text, given, givenToo, legible, count⟩
    · rw [failed, failedToo]
      rfl
    · obtain ⟨samples, report⟩ := report_of_legible legible
      rw [given, givenToo, ← count]
      simp [Except.map, samples, report]
  · rintro text rfl
    exact readBytes_toUTF8 text

/-- The bytes of a file with a blank line, a header with a field that is no text, a
row that is no text and a last row without a line end. -/
def brokenBytes : List UInt8 :=
  "\r\ntime,name,value,".toList.flatMap String.utf8EncodeChar ++ [0xFF, 0x0A] ++
    "5,a,1.5\r\n".toList.flatMap String.utf8EncodeChar ++ [0x61, 0xC3, 0x0A] ++
    "5,b,2".toList.flatMap String.utf8EncodeChar

/-- Of the three rows of `brokenBytes` two are accepted, and the one that is no text is
malformed. -/
theorem readSamples_eq_readText_legibleText_brokenBytes :
    let world := Disk.World.ofTree ⟨.directory [("a.csv", .file (.bytes brokenBytes))], []⟩
    let result := ((Report.readSamples Disk.Host.world "a.csv").run world).1
    world.tree.readFile "a.csv" = .ok brokenBytes ∧
      illegibleRows brokenBytes = 1 ∧
      (result.map fun reading => (reading.samples, reading.report)) =
        .ok ([⟨"a", "", .clamp 5, 1.5⟩, ⟨"b", "", .clamp 5, 2⟩], ⟨3, 2, 0, 1⟩) := by
  intro world result
  have stored : world.tree.readFile "a.csv" = .ok brokenBytes := by
    have path : Disk.checkPath "a.csv" = .ok () := by
      rw [Disk.checkPath, if_neg (by simp), if_neg (by decide +kernel), if_neg (by decide +kernel)]
    have relative : Disk.isAbsolute "a.csv" = false := by simp [Disk.isAbsolute]
    have segments : Disk.segments "a.csv" = ["a.csv"] := by decide +kernel
    simp only [Disk.Tree.readFile, Disk.Tree.lookup, Disk.Tree.follow, path, relative, segments]
    rfl
  have illegible : illegibleRows brokenBytes = 1 := by decide +kernel
  refine ⟨stored, illegible, (readSamples_eq_readText_legibleText stored).1.trans ?_⟩
  decide +kernel

end MetricRates
