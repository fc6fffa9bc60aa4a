import MetricRates.Proofs.Report.Jobs
import MetricRates.Proofs.Table.Arrangement

/-!
# Charts of groups

The groups are drawn in the order in which they come first, up to the first one that
cannot be drawn.  Its failure is that of all groups, and the groups after it are left
out.
-/

namespace MetricRates.Report

open Disk

variable {answers : Answers}

/-! ## The groups -/

theorem nodup_groupNames (entries : List Entry) : (groupNames entries).Nodup :=
  nodup_eraseDups _

theorem mem_groupNames_iff {entries : List Entry} {group : String} :
    group ∈ groupNames entries ↔ ∃ entry ∈ entries, entry.plan.chart.group = some group := by
  rw [groupNames, List.mem_eraseDups, List.mem_filterMap]

/-- The job of each group that has rows. -/
def picturesOf (directory : String) (entries : List Entry) (groups : List String) : List Job :=
  groups.filterMap fun group => groupPicture? directory group (groupPanels entries group)

theorem picturesOf_cons (directory : String) (entries : List Entry) (group : String)
    (groups : List String) :
    picturesOf directory entries (group :: groups) =
      (groupPicture? directory group (groupPanels entries group)).toList ++
        picturesOf directory entries groups := by
  unfold picturesOf
  rw [List.filterMap_cons]
  cases groupPicture? directory group (groupPanels entries group) <;> rfl

/-- A job belongs to a group, and the jobs before it are those of the groups before. -/
theorem exists_group_of_picturesOf {directory : String} {entries : List Entry}
    {groups : List String} {before after : List Job} {job : Job}
    (pictures : picturesOf directory entries groups = before ++ job :: after) :
    ∃ earlier group later, groups = earlier ++ group :: later ∧
      groupPicture? directory group (groupPanels entries group) = some job ∧
      picturesOf directory entries earlier = before := by
  obtain ⟨first, rest, rfl, firstJobs, restJobs⟩ := List.filterMap_eq_append_iff.mp pictures
  obtain ⟨undrawn, group, later, rfl, skipped, drawn, -⟩ := List.filterMap_eq_cons_iff.mp restJobs
  refine ⟨first ++ undrawn, group, later, (List.append_assoc ..).symm, drawn, ?_⟩
  rw [picturesOf, List.filterMap_append, firstJobs, List.filterMap_eq_nil_iff.mpr skipped,
    List.append_nil]

/-! ## Drawing them -/

theorem ensures_tellChart (path : Option String) :
    Ensures (tellChart answers.host path) fun deeds _ => Works [] deeds none := by
  cases path with
  | none => exact ensures_pure (works_tell [])
  | some path =>
      apply (ensures_tell _).imp
      rintro _ _ rfl
      exact works_tell [_]

theorem ensures_drawGroups (directory : String) (entries : List Entry) (groups : List String) :
    Ensures (drawGroups answers.host directory entries groups) fun deeds result =>
      Works (picturesOf directory entries groups) deeds (failure? result) := by
  induction groups with
  | nil => exact ensures_pure (works_tell [])
  | cons group groups ih =>
      rw [picturesOf_cons]
      apply (ensures_drawGroup directory group _).bind
      rintro deeds (cause | path) run
      · refine ensures_pure ?_
        rw [List.append_nil]
        exact run.works.stop _
      · apply (ensures_tellChart path).bind
        intro told _ telling
        apply ih.imp
        intro more result rest
        exact run.works.append (telling.append rest)

/-- The jobs of the groups of a report; without charts there are none. -/
def groupJobs (outlets : Outlets) (entries : List Entry) : List Job :=
  match outlets.charts with
  | none => []
  | some directory => picturesOf directory entries (groupNames entries)

theorem ensures_reportGroups (outlets : Outlets) (entries : List Entry) :
    Ensures (reportGroups answers.host outlets entries) fun deeds failure =>
      Works (groupJobs outlets entries) deeds failure := by
  unfold reportGroups groupJobs
  cases outlets.charts with
  | none => exact ensures_pure (works_tell [])
  | some directory =>
      apply (ensures_drawGroups directory entries _).bind
      rintro deeds (cause | ⟨⟨⟩⟩) drawn
      · apply (ensures_tell _).bind
        rintro _ _ rfl
        refine ensures_pure ?_
        rw [List.append_nil]
        exact drawn.tells [_]
      · refine ensures_pure ?_
        rw [List.append_nil]
        exact drawn

/-! ## Up to the first failure -/

/-- Each group is drawn once, in the order in which the groups come first, up to the first
that cannot be: then the error is the one of that group, and neither a directory nor a file
is asked for on behalf of the groups after it. -/
theorem drawGroups_up_to_first_failure (answers : Answers) (directory : String)
    (entries : List Entry) :
    (groupNames entries).Nodup ∧
    (∀ group, group ∈ groupNames entries ↔
      ∃ entry ∈ entries, entry.plan.chart.group = some group) ∧
    Ensures (drawGroups answers.host directory entries (groupNames entries)) fun deeds result =>
      (result = .ok () ∧
        requests deeds =
          (picturesOf directory entries (groupNames entries)).flatMap Job.deeds) ∨
      ∃ earlier group later job tried cause,
        groupNames entries = earlier ++ group :: later ∧
        groupPicture? directory group (groupPanels entries group) = some job ∧
        job.Fails tried cause ∧
        requests deeds = (picturesOf directory entries earlier).flatMap Job.deeds ++ tried ∧
        result = .error cause := by
  refine ⟨nodup_groupNames entries, fun group => mem_groupNames_iff, ?_⟩
  apply (ensures_drawGroups directory entries _).imp
  intro deeds result works
  rcases works.carriedOut.all_or_first with
    ⟨succeeded, asked⟩ | ⟨before, job, after, tried, cause, split, fails, asked, failed⟩
  · cases result with
    | ok => exact Or.inl ⟨rfl, asked⟩
    | error => cases succeeded
  · obtain ⟨earlier, group, later, groups, drawn, rfl⟩ := exists_group_of_picturesOf split
    cases result with
    | ok => cases failed
    | error =>
        cases failed
        exact Or.inr ⟨earlier, group, later, job, tried, _, groups, drawn, fails, asked, rfl⟩

/-- Every job is attempted, whatever became of those before it, and the first failure is
that of them all. -/
inductive Attempted : List Job → List Deed → Option RunError → Prop
  | nothing : Attempted [] [] none
  | done {job : Job} {jobs : List Job} {deeds : List Deed} {failure : Option RunError} :
      Attempted jobs deeds failure → Attempted (job :: jobs) (job.deeds ++ deeds) failure
  | failed {job : Job} {jobs : List Job} {tried deeds : List Deed} {cause : RunError}
      {failure : Option RunError} : job.Fails tried cause → Attempted jobs deeds failure →
        Attempted (job :: jobs) (tried ++ deeds) (some cause)

/-- A job is tried: its file is written, unless its directory cannot be made. -/
def Job.TriedIn (job : Job) (deeds : List Deed) : Prop :=
  (∃ answer, .write job.path job.content answer ∈ deeds) ∨
    ∃ cause, .make job.directory (.error cause) ∈ deeds

theorem Job.TriedIn.after {job : Job} {deeds : List Deed} (tried : job.TriedIn deeds)
    (before : List Deed) : job.TriedIn (before ++ deeds) := by
  rcases tried with ⟨answer, written⟩ | ⟨cause, made⟩
  · exact Or.inl ⟨answer, List.mem_append_right _ written⟩
  · exact Or.inr ⟨cause, List.mem_append_right _ made⟩

theorem Attempted.triedIn {jobs : List Job} {deeds : List Deed} {failure : Option RunError}
    (attempted : Attempted jobs deeds failure) {job : Job} (listed : job ∈ jobs) :
    job.TriedIn deeds := by
  induction attempted with
  | nothing => cases listed
  | done _ ih =>
      rcases List.mem_cons.mp listed with rfl | later
      · exact Or.inl ⟨.ok (), by simp [Job.deeds]⟩
      · exact (ih later).after _
  | failed fails _ ih =>
      rcases List.mem_cons.mp listed with rfl | later
      · cases fails with
        | noDirectory cause => exact Or.inr ⟨cause, by simp⟩
        | noFile cause => exact Or.inl ⟨.error cause, by simp⟩
      · exact (ih later).after _

/-- A family with one row, in a group of its own. -/
def loneEntry (group : String) : Entry where
  plan :=
    { spec := FamilySpec.new group (.ofList ["total"]) .instantaneous
      chart := { ChartStyle.line group with group := some group } }
  output :=
    { name := group
      metric := group
      derived := .readings ⟨[.clamp 0], [], by simp⟩
      filteredSamples := 1
      alignedRows := 1
      ignoredLabels := .ofList [] }

/-- A disk on which the file that is written first turns out to be a directory. -/
def firstFileBlocked : Answers where
  has _ _ := true
  readFile _ _ := .ok []
  makeDirectories _ _ := .ok ()
  writeFile past _ _ :=
    if past.any fun deed => deed matches .write .. then .ok () else .error .isDirectory

/-- Of two groups the first cannot be written, and the second is not attempted. -/
theorem drawGroups_leaves_group_out :
    ¬ ∀ (answers : Answers) (directory : String) (entries : List Entry),
      Ensures (drawGroups answers.host directory entries (groupNames entries))
        fun deeds result =>
          Attempted (picturesOf directory entries (groupNames entries)) (requests deeds)
            (failure? result) := by
  intro claimed
  obtain ⟨deeds, result, ran, attempted⟩ :=
    claimed firstFileBlocked "charts" [loneEntry "a", loneEntry "b"] []
  let job (group : String) : Job :=
    pictureJob "charts" group (panelsPicture [(loneEntry group).panel])
  have asked : requests deeds = [.make "charts" (.ok ()),
      .write (job "a").path (job "a").content (.error .isDirectory)] :=
    congrArg (fun run => requests run.2) ran.symm
  have listed : job "b" ∈ picturesOf "charts"
      [loneEntry "a", loneEntry "b"] (groupNames [loneEntry "a", loneEntry "b"]) :=
    List.mem_cons_of_mem _ List.mem_cons_self
  have elsewhere : (job "b").path ≠ (job "a").path := by decide +kernel
  rw [asked] at attempted
  rcases attempted.triedIn listed with ⟨answer, written⟩ | ⟨cause, made⟩
  · simp [elsewhere] at written
  · simp [job, pictureJob] at made

end MetricRates.Report
