import MetricRates.Proofs.Disk.Deeds
import MetricRates.Report.Run

/-!
# Files that a report writes

Every file of a report is a job: its directory is made if need be, and then the file is
written.  Jobs are carried out one after another up to the first that fails.  Which jobs
a family or a group of families has depends on nothing that was done before.
-/

namespace MetricRates.Report

open Chart Disk

/-! ## Jobs -/

/-- A file that is to be in a directory. -/
structure Job where
  directory : String
  file : String
  content : Content
  /-- What it counts as that the file cannot be written. -/
  refusal : DiskError → RunError

namespace Job

/-- The path of the file. -/
def path (job : Job) : String :=
  join job.directory job.file

/-- What is done where nothing fails. -/
def deeds (job : Job) : List Deed :=
  [.make job.directory (.ok ()), .write job.path job.content (.ok ())]

/-- A job fails because its directory cannot be made or its file cannot be written. -/
inductive Fails (job : Job) : List Deed → RunError → Prop
  | noDirectory (cause : DiskError) :
      Fails job [.make job.directory (.error cause)] (.disk cause)
  | noFile (cause : DiskError) :
      Fails job [.make job.directory (.ok ()), .write job.path job.content (.error cause)]
        (job.refusal cause)

end Job

/-- Jobs are carried out in their order up to the first that fails, which is the failure of
them all. -/
inductive CarriedOut : List Job → List Deed → Option RunError → Prop
  | nothing : CarriedOut [] [] none
  | done {job : Job} {jobs : List Job} {deeds : List Deed} {failure : Option RunError} :
      CarriedOut jobs deeds failure → CarriedOut (job :: jobs) (job.deeds ++ deeds) failure
  | failed {job : Job} {jobs : List Job} {deeds : List Deed} {cause : RunError} :
      job.Fails deeds cause → CarriedOut (job :: jobs) deeds (some cause)

/-- Jobs that succeed are followed by others. -/
theorem CarriedOut.append {jobs more : List Job} {deeds others : List Deed}
    {earlier failure : Option RunError} (first : CarriedOut jobs deeds earlier)
    (succeeded : earlier = none) (second : CarriedOut more others failure) :
    CarriedOut (jobs ++ more) (deeds ++ others) failure := by
  induction first with
  | nothing => exact second
  | done _ ih =>
      rw [List.cons_append, List.append_assoc]
      exact CarriedOut.done (ih succeeded)
  | failed => cases succeeded

/-- After a failure the other jobs are left out. -/
theorem CarriedOut.stop {jobs : List Job} {deeds : List Deed} {failure : Option RunError}
    {cause : RunError} (first : CarriedOut jobs deeds failure) (failing : failure = some cause)
    (more : List Job) : CarriedOut (jobs ++ more) deeds (some cause) := by
  induction first with
  | nothing => cases failing
  | done _ ih => exact CarriedOut.done (ih failing)
  | failed fails =>
      cases failing
      exact CarriedOut.failed fails

/-- Either all jobs are carried out, or one of them fails after all before it were carried
out and none after it is begun. -/
theorem CarriedOut.all_or_first {jobs : List Job} {deeds : List Deed} {failure : Option RunError}
    (carried : CarriedOut jobs deeds failure) :
    (failure = none ∧ deeds = jobs.flatMap Job.deeds) ∨
      ∃ before job after tried cause, jobs = before ++ job :: after ∧ job.Fails tried cause ∧
        deeds = before.flatMap Job.deeds ++ tried ∧ failure = some cause := by
  induction carried with
  | nothing => exact Or.inl ⟨rfl, rfl⟩
  | @done first jobs deeds failure _ ih =>
      rcases ih with ⟨succeeded, rfl⟩ | ⟨before, job, after, tried, cause, rfl, fails, rfl, failed⟩
      · exact Or.inl ⟨succeeded, rfl⟩
      · refine Or.inr ⟨first :: before, job, after, tried, cause, rfl, fails, ?_, failed⟩
        rw [List.flatMap_cons, List.append_assoc]
  | @failed job jobs tried cause fails =>
      exact Or.inr ⟨[], job, jobs, tried, cause, rfl, fails, rfl, rfl⟩

/-- Nothing is printed, and the disk is asked for jobs. -/
structure Works (jobs : List Job) (deeds : List Deed) (failure : Option RunError) : Prop where
  silent : printed deeds = []
  carriedOut : CarriedOut jobs (requests deeds) failure

theorem Works.append {jobs more : List Job} {deeds others : List Deed} {failure : Option RunError}
    (first : Works jobs deeds none) (second : Works more others failure) :
    Works (jobs ++ more) (deeds ++ others) failure where
  silent := by rw [printed_append, first.silent, second.silent, List.append_nil]
  carriedOut := by
    rw [requests_append]
    exact first.carriedOut.append rfl second.carriedOut

theorem Works.stop {jobs : List Job} {deeds : List Deed} {cause : RunError}
    (first : Works jobs deeds (some cause)) (more : List Job) :
    Works (jobs ++ more) deeds (some cause) :=
  ⟨first.silent, first.carriedOut.stop rfl more⟩

/-- Telling of events is no work. -/
theorem works_tell (events : List Event) : Works [] (events.map .tell) none where
  silent := printed_map_tell events
  carriedOut := by
    rw [requests_map_tell]
    exact .nothing

/-- What is told after the work changes nothing about it. -/
theorem Works.tells {jobs : List Job} {deeds : List Deed} {failure : Option RunError}
    (works : Works jobs deeds failure) (events : List Event) :
    Works jobs (deeds ++ events.map .tell) failure where
  silent := by rw [printed_append, works.silent, printed_map_tell, List.append_nil]
  carriedOut := by
    rw [requests_append, requests_map_tell, List.append_nil]
    exact works.carriedOut

/-- The failure of a result, if it is one. -/
def failure? {α : Type} : Except RunError α → Option RunError
  | .ok _ => none
  | .error cause => some cause

@[simp]
theorem failure?_map {α β : Type} (f : α → β) (result : Except RunError α) :
    failure? (result.map f) = failure? result := by
  cases result <;> rfl

variable {answers : Answers}

/-! ## Pictures -/

/-- The job of drawing a picture. -/
def pictureJob (directory name : String) (picture : Picture) : Job where
  directory := directory
  file := chartFileName name
  content := .ofPicture picture
  refusal := .drawing

/-- The job of drawing a family; one without rows is not drawn. -/
def familyPicture? (directory family : String) (style : ChartStyle) (table : Table Float) :
    Option Job :=
  if table.isEmpty then none
  else some (pictureJob directory family (familyPicture style table))

/-- The job of drawing a group, with a panel for each table that has rows. -/
def groupPicture? (directory group : String) (panels : List Panel) : Option Job :=
  if (drawnPanels panels).isEmpty then none
  else some (pictureJob directory group (panelsPicture (drawnPanels panels)))

/-- How it goes to draw a picture: its directory cannot be made, its file cannot be written,
or nothing is refused. -/
inductive DrawRun (directory name : String) (plotting : Event) (picture : Picture) :
    List Deed → Except RunError String → Prop
  | noDirectory (cause : DiskError) :
      DrawRun directory name plotting picture
        [.make directory (.error cause), .tell (directoryFailure directory cause)]
        (.error (.disk cause))
  | noFile (cause : DiskError) :
      DrawRun directory name plotting picture
        [.make directory (.ok ()), .tell plotting,
          .write (join directory (chartFileName name)) (.ofPicture picture) (.error cause)]
        (.error (.drawing cause))
  | done :
      DrawRun directory name plotting picture
        [.make directory (.ok ()), .tell plotting,
          .write (join directory (chartFileName name)) (.ofPicture picture) (.ok ())]
        (.ok (join directory (chartFileName name)))

theorem ensures_draw (directory name : String) (plotting : Event) (picture : Picture) :
    Ensures (draw answers.host directory name plotting picture)
      (DrawRun directory name plotting picture) := by
  apply (ensures_makeDirectories directory).bind
  rintro _ (cause | ⟨⟨⟩⟩) rfl
  · apply (ensures_tell _).bind
    rintro _ _ rfl
    exact ensures_pure (.noDirectory cause)
  · apply (ensures_tell _).bind
    rintro _ _ rfl
    apply (ensures_writeFile _ _).bind
    rintro _ (cause | ⟨⟨⟩⟩) rfl
    · exact ensures_pure (.noFile cause)
    · exact ensures_pure .done

theorem DrawRun.works {directory name : String} {plotting : Event} {picture : Picture}
    {deeds : List Deed} {result : Except RunError String}
    (run : DrawRun directory name plotting picture deeds result) :
    Works [pictureJob directory name picture] deeds (failure? result) := by
  cases run with
  | noDirectory cause => exact ⟨rfl, CarriedOut.failed (.noDirectory cause)⟩
  | noFile cause => exact ⟨rfl, CarriedOut.failed (.noFile cause)⟩
  | done => exact ⟨rfl, CarriedOut.done .nothing⟩

theorem ensures_drawFamily (directory family : String) (style : ChartStyle)
    (table : Table Float) :
    Ensures (drawFamily answers.host directory family style table) fun deeds result =>
      Works (familyPicture? directory family style table).toList deeds (failure? result) := by
  unfold drawFamily familyPicture?
  by_cases empty : table.isEmpty = true
  · rw [if_pos empty, if_pos empty]
    apply (ensures_tell _).bind
    rintro _ _ rfl
    exact ensures_pure (works_tell [_])
  · rw [if_neg empty, if_neg empty]
    apply (ensures_draw directory family _ (familyPicture style table)).map
    intro deeds result run
    rw [failure?_map]
    exact run.works

/-- How it goes to draw a group: the panels without rows are told, and the others are drawn,
unless there are none. -/
inductive GroupRun (directory group : String) (panels : List Panel) :
    List Deed → Except RunError (Option String) → Prop
  | skipped (undrawn : drawnPanels panels = []) :
      GroupRun directory group panels
        (((panels.filter fun panel => panel.table.isEmpty).map (leftOut group)).map .tell ++
          [.tell (.warn ("Chart group '" ++ group ++ "' has no rows; chart skipped"))])
        (.ok none)
  | drawn {deeds : List Deed} {result : Except RunError String}
      (rows : drawnPanels panels ≠ [])
      (run : DrawRun directory group
        (.info ("Plotting " ++ group ++ " (" ++ toString (drawnPanels panels).length ++
          " panels)..."))
        (panelsPicture (drawnPanels panels)) deeds result) :
      GroupRun directory group panels
        (((panels.filter fun panel => panel.table.isEmpty).map (leftOut group)).map .tell ++ deeds)
        (result.map some)

theorem ensures_drawGroup (directory group : String) (panels : List Panel) :
    Ensures (drawGroup answers.host directory group panels)
      (GroupRun directory group panels) := by
  apply (ensures_tellAll _).bind
  rintro _ _ rfl
  by_cases undrawn : drawnPanels panels = []
  · simp only [undrawn, List.isEmpty_nil, if_true]
    apply (ensures_tell _).bind
    rintro _ _ rfl
    exact ensures_pure (.skipped undrawn)
  · simp only [List.isEmpty_iff, undrawn, if_false]
    apply (ensures_draw directory group _ _).map
    intro deeds result run
    exact .drawn undrawn run

theorem GroupRun.works {directory group : String} {panels : List Panel} {deeds : List Deed}
    {result : Except RunError (Option String)}
    (run : GroupRun directory group panels deeds result) :
    Works (groupPicture? directory group panels).toList deeds (failure? result) := by
  unfold groupPicture?
  cases run with
  | skipped undrawn =>
      rw [if_pos (List.isEmpty_iff.mpr undrawn)]
      exact (works_tell _).append (works_tell [_])
  | drawn rows run =>
      rw [if_neg (mt List.isEmpty_iff.mp rows), failure?_map]
      exact (works_tell _).append run.works

/-! ## Exports -/

/-- The job of exporting a text, if there is a directory for it. -/
def textJob? (directory : Option String) (file text : String) : Option Job :=
  directory.map fun directory =>
    { directory := directory, file := file, content := .ofText text, refusal := .disk }

/-- The jobs of exporting an output. -/
def exportJobs (output : FamilyOutput) (unit : String)
    (csvDirectory jsonDirectory : Option String) : List Job :=
  (textJob? csvDirectory (fileStem output.name ++ ".csv") (csvText output.derived.table)).toList ++
    (textJob? jsonDirectory (fileStem output.name ++ ".json") (jsonText output unit)).toList

theorem ensures_writeText (directory file text : String) :
    Ensures (writeText answers.host directory file text) fun deeds result =>
      Works (textJob? (some directory) file text).toList deeds
        (failure? (result.mapError .disk)) := by
  apply (ensures_makeDirectories directory).bind
  rintro _ (cause | ⟨⟨⟩⟩) rfl
  · exact ensures_pure ⟨rfl, CarriedOut.failed (.noDirectory cause)⟩
  · apply (ensures_writeFile _ _).bind
    rintro _ (cause | ⟨⟨⟩⟩) rfl
    · exact ensures_pure ⟨rfl, CarriedOut.failed (.noFile cause)⟩
    · exact ensures_pure ⟨rfl, CarriedOut.done .nothing⟩

theorem ensures_writeTextIn (directory : Option String) (file text : String) :
    Ensures (writeTextIn answers.host directory file text) fun deeds result =>
      Works (textJob? directory file text).toList deeds (failure? (result.mapError .disk)) := by
  cases directory with
  | none => exact ensures_pure (works_tell [])
  | some directory =>
      apply (ensures_writeText directory file text).map
      rintro deeds (cause | path) written
      · exact written
      · exact written

theorem ensures_exportOutput (output : FamilyOutput) (unit : String)
    (csvDirectory jsonDirectory : Option String) :
    Ensures (exportOutput answers.host output unit csvDirectory jsonDirectory) fun deeds result =>
      Works (exportJobs output unit csvDirectory jsonDirectory) deeds
        (failure? (result.mapError .disk)) := by
  apply (ensures_writeTextIn _ _ _).bind
  rintro deeds (cause | csv) first
  · refine ensures_pure ?_
    rw [List.append_nil]
    exact first.stop _
  · apply (ensures_writeTextIn _ _ _).bind
    rintro more (cause | json) second
    · refine ensures_pure ?_
      rw [List.append_nil]
      exact first.append second
    · refine ensures_pure ?_
      rw [List.append_nil]
      exact first.append second

end MetricRates.Report
