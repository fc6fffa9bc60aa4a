import MetricRates.Proofs.Disk.Path
import MetricRates.Proofs.Family.Processing
import MetricRates.Proofs.Report.Families
import MetricRates.Proofs.Report.FileName
import MetricRates.Proofs.Settings.Layers

/-!
# Files that are not overwritten

The files of a report are named after families and groups, but names that differ can have
one file name.  Where the file names differ, no two files of a report have the same name,
so what is written stays as it is; where they do not, two outputs have the same path.
-/

namespace MetricRates.Report

open Disk Command

/-! ## The paths of outputs -/

/-- The path of the output of a family or group. -/
def outputPath (directory extension name : String) : String :=
  join directory (fileStem name ++ extension)

/-- The extensions of pictures and of the two exports. -/
def extensions : List String := [".png", ".csv", ".json"]

/-- The groups that some plans belong to, each once. -/
def groupsOf (plans : List FamilyPlan) : List String :=
  (plans.filterMap fun plan => plan.chart.group).eraseDups

/-- The names of all charts: of the families without a group and of the groups. -/
def chartNames (plans : List FamilyPlan) : List String :=
  planNames (plans.filter fun plan => plan.chart.group.isNone) ++ groupsOf plans

/-- No two outputs of a kind have the same path. -/
structure OutputsApart (charts csv json : String) (plans : List FamilyPlan) : Prop where
  csv : ((planNames plans).map (outputPath csv ".csv")).Nodup
  json : ((planNames plans).map (outputPath json ".json")).Nodup
  charts : ((chartNames plans).map (outputPath charts ".png")).Nodup

/-- No two families and no two charts have the same file name. -/
structure HasDistinctStems (plans : List FamilyPlan) : Prop where
  families : ((planNames plans).map fileStem).Nodup
  charts : ((chartNames plans).map fileStem).Nodup

instance (plans : List FamilyPlan) : Decidable (HasDistinctStems plans) :=
  decidable_of_iff
    (((planNames plans).map fileStem).Nodup ∧ ((chartNames plans).map fileStem).Nodup)
    ⟨fun ⟨families, charts⟩ => ⟨families, charts⟩, fun stems => ⟨stems.families, stems.charts⟩⟩

/-- The name of a file has no slash. -/
theorem no_slash_file (name : String) {extension : String} (listed : extension ∈ extensions) :
    '/' ∉ (fileStem name ++ extension).toList := by
  rw [String.toList_append, List.mem_append]
  rintro (slash | slash)
  · exact absurd (isFileNameChar_of_mem_fileStem slash) (by decide)
  · revert extension
    decide

/-- Outputs of a kind have the same path exactly when their file names are the same. -/
theorem outputPath_eq_iff {directory extension first second : String}
    (listed : extension ∈ extensions) :
    outputPath directory extension first = outputPath directory extension second ↔
      fileStem first = fileStem second := by
  rw [outputPath, outputPath, join_inj (no_slash_file first listed) (no_slash_file second listed),
    String.append_left_inj]

theorem nodup_map_outputPath_iff {directory extension : String} {names : List String}
    (listed : extension ∈ extensions) :
    (names.map (outputPath directory extension)).Nodup ↔ (names.map fileStem).Nodup := by
  rw [List.Nodup, List.pairwise_map, List.pairwise_map]
  exact List.Pairwise.iff fun _ _ => not_congr (outputPath_eq_iff listed)

/-- Outputs are apart, in whatever directories, exactly when their file names differ. -/
theorem outputsApart_iff {charts csv json : String} {plans : List FamilyPlan} :
    OutputsApart charts csv json plans ↔ HasDistinctStems plans := by
  constructor
  · intro apart
    exact ⟨(nodup_map_outputPath_iff (by decide)).mp apart.csv,
      (nodup_map_outputPath_iff (by decide)).mp apart.charts⟩
  · intro stems
    exact ⟨(nodup_map_outputPath_iff (by decide)).mpr stems.families,
      (nodup_map_outputPath_iff (by decide)).mpr stems.families,
      (nodup_map_outputPath_iff (by decide)).mpr stems.charts⟩

/-- It is enough that the names are plain and that no group has the name of a family with
a chart of its own. -/
theorem hasDistinctStems_of_plain {plans : List FamilyPlan}
    (distinct : (planNames plans).Nodup) (plainNames : ∀ name ∈ planNames plans, IsPlainName name)
    (plainGroups : ∀ group ∈ groupsOf plans, IsPlainName group)
    (apart : ∀ plan ∈ plans, plan.chart.group = none → plan.name ∉ groupsOf plans) :
    HasDistinctStems plans := by
  have kept {names : List String} (plain : ∀ name ∈ names, IsPlainName name) :
      names.map fileStem = names :=
    (List.map_congr_left fun name listed => (plain name listed).fileStem_eq).trans (List.map_id _)
  have alone : (planNames (plans.filter fun plan => plan.chart.group.isNone)).Sublist
      (planNames plans) := List.filter_sublist.map _
  constructor
  · rwa [kept plainNames]
  · rw [chartNames, kept (List.forall_mem_append.mpr
      ⟨fun name listed => plainNames name (alone.mem listed), plainGroups⟩)]
    refine (distinct.sublist alone).append (nodup_eraseDups _) fun name ofFamily ofGroup => ?_
    obtain ⟨plan, listed, rfl⟩ := List.mem_map.mp ofFamily
    obtain ⟨inPlans, ungrouped⟩ := List.mem_filter.mp listed
    exact apart plan inPlans (Option.isNone_iff_eq_none.mp ungrouped) ofGroup

/-- The built-in families have plain names, and none of them has the name of a group. -/
theorem plain_presets : ∀ preset ∈ presets, IsPlainName preset.name ∧
    (∀ group ∈ preset.group, IsPlainName group) ∧
      ∀ other ∈ presets, other.group ≠ some preset.name := by
  decide +kernel

/-- Without tables in the settings every selected plan is that of a built-in family, as
far as its name and its group go. -/
theorem exists_preset_of_plans {options : Options} {settings : Settings} {present : List String}
    {plans : List FamilyPlan} (selected : options.plans settings present = .ok plans)
    (untabled : settings.family = []) :
    ∀ plan ∈ plans, ∃ preset ∈ presets,
      plan.name = preset.name ∧ plan.chart.group = preset.group := by
  obtain ⟨known, chosen, given, choice, rfl⟩ := exists_choice_of_plans selected
  obtain ⟨common, tables, isCatalog⟩ := catalog_eq_ok_iff.mp given
  rw [List.forall_mem_map]
  intro family listed
  rcases isCatalog.mem_cases (choice.mem_known listed) with ofTable | ⟨preset, builtIn, -, rfl⟩
  · have named := isCatalog.titles
    rw [untabled, List.map_nil, eq_comm, List.map_eq_nil_iff] at named
    exact absurd (name_mem_planNames ofTable) (named ▸ List.not_mem_nil)
  · exact ⟨preset, builtIn, rfl, rfl⟩

/-- Without tables in the settings all file names differ. -/
theorem hasDistinctStems_of_builtIn {options : Options} {settings : Settings}
    {present : List String} {plans : List FamilyPlan}
    (selected : options.plans settings present = .ok plans) (untabled : settings.family = []) :
    HasDistinctStems plans := by
  have builtIn := exists_preset_of_plans selected untabled
  have grouped {group : String} (listed : group ∈ groupsOf plans) :
      ∃ preset ∈ presets, preset.group = some group := by
    rw [groupsOf, List.mem_eraseDups, List.mem_filterMap] at listed
    obtain ⟨plan, inPlans, named⟩ := listed
    obtain ⟨preset, known, -, same⟩ := builtIn plan inPlans
    exact ⟨preset, known, same.symm.trans named⟩
  apply hasDistinctStems_of_plain (nodup_planNames_of_plans selected)
  · rw [planNames, List.forall_mem_map]
    intro plan listed
    obtain ⟨preset, known, named, -⟩ := builtIn plan listed
    exact named ▸ (plain_presets preset known).1
  · intro group listed
    obtain ⟨preset, known, named⟩ := grouped listed
    exact (plain_presets preset known).2.1 group named
  · intro plan listed _ ofGroup
    obtain ⟨preset, known, named, -⟩ := builtIn plan listed
    obtain ⟨other, otherKnown, sameName⟩ := grouped ofGroup
    exact (plain_presets preset known).2.2 other otherKnown (sameName.trans (congrArg some named))

/-! ## The files of a report -/

/-- A file name tells its stem and its extension. -/
theorem file_eq_iff {first second firstExtension secondExtension : String}
    (firstListed : firstExtension ∈ extensions) (secondListed : secondExtension ∈ extensions) :
    first ++ firstExtension = second ++ secondExtension ↔
      first = second ∧ firstExtension = secondExtension := by
  have ending {stem extension : String} (listed : extension ∈ extensions) :
      (stem ++ extension).toList.getLast? = extension.toList.getLast? := by
    have ends : ∀ extension ∈ extensions, extension.toList.getLast?.isSome := by decide
    rw [String.toList_append, List.getLast?_append, Option.or_of_isSome (ends extension listed)]
  have told : ∀ first ∈ extensions, ∀ second ∈ extensions,
      first.toList.getLast? = second.toList.getLast? → first = second := by decide
  constructor
  · intro same
    have sameEnd := congrArg (fun file => file.toList.getLast?) same
    simp only [ending firstListed, ending secondListed] at sameEnd
    obtain rfl := told _ firstListed _ secondListed sameEnd
    exact ⟨(String.append_left_inj _).mp same, rfl⟩
  · rintro ⟨rfl, rfl⟩
    rfl

/-- The files that a family can have: one that belongs to a group has no picture of its
own. -/
def familyFiles (plan : FamilyPlan) : List String :=
  (if plan.chart.group.isNone then extensions else extensions.tail).map (fileStem plan.name ++ ·)

theorem mem_familyFiles {plan : FamilyPlan} {file : String} :
    file ∈ familyFiles plan ↔ ∃ extension ∈ extensions,
      file = fileStem plan.name ++ extension ∧
        (extension = ".png" → plan.chart.group.isNone) := by
  unfold familyFiles
  cases plan.chart.group <;> simp [extensions]

theorem nodup_familyFiles (plan : FamilyPlan) : (familyFiles plan).Nodup := by
  have distinct : (if plan.chart.group.isNone then extensions else extensions.tail).Nodup := by
    split <;> decide
  exact distinct.map fun _ _ same => (String.append_right_inj _).mp same

/-- The jobs of a family as it was derived. -/
def resultJobs (outlets : Outlets) (result : FamilyPlan × Derived) : List Job :=
  match result.2 with
  | .ok output => familyJobs outlets ⟨result.1, output⟩
  | .error _ => []

/-- The jobs of a report, in their order: those of the families and those of the groups. -/
def reportJobs (outlets : Outlets) (results : List (FamilyPlan × Derived)) : List Job :=
  results.flatMap (resultJobs outlets) ++ groupJobs outlets (groupedEntries results)

/-- The plan and the output of a family agree on its name. -/
def Agrees (result : FamilyPlan × Derived) : Prop :=
  ∀ output, result.2 = .ok output → output.name = result.1.name

/-- The files of a family are among those that it can have, in their order. -/
theorem files_resultJobs_sublist (outlets : Outlets) {result : FamilyPlan × Derived}
    (agrees : Agrees result) :
    ((resultJobs outlets result).map Job.file).Sublist (familyFiles result.1) := by
  obtain ⟨plan, cause | output⟩ := result
  · exact List.nil_sublist _
  · have named : output.name = plan.name := agrees output rfl
    have csv : ((textJob? outlets.csv (fileStem plan.name ++ ".csv")
        (csvText output.derived.table)).toList.map Job.file).Sublist
          [fileStem plan.name ++ ".csv"] := by
      cases outlets.csv <;> simp [textJob?]
    have json : ((textJob? outlets.json (fileStem plan.name ++ ".json")
        (jsonText output plan.chart.unit)).toList.map Job.file).Sublist
          [fileStem plan.name ++ ".json"] := by
      cases outlets.json <;> simp [textJob?]
    have picture : ((ownPicture? outlets ⟨plan, output⟩).toList.map Job.file).Sublist
        (if plan.chart.group.isNone then [fileStem plan.name ++ ".png"] else []) := by
      unfold ownPicture? familyPicture?
      cases plan.chart.group with
      | some group => simp
      | none =>
          cases outlets.charts with
          | none => simp
          | some directory =>
              by_cases empty : output.derived.table.isEmpty = true <;>
                simp [empty, pictureJob, chartFileName, named]
    have files := picture.append (csv.append json)
    simp only [resultJobs, familyJobs, exportJobs, named, List.map_append]
    unfold familyFiles
    cases grouped : plan.chart.group <;> simpa [grouped, extensions] using files

theorem files_picturesOf_sublist (directory : String) (entries : List Entry)
    (groups : List String) :
    ((picturesOf directory entries groups).map Job.file).Sublist (groups.map chartFileName) := by
  induction groups with
  | nil => exact List.nil_sublist _
  | cons group groups ih =>
      have picture : ((groupPicture? directory group (groupPanels entries group)).toList.map
          Job.file).Sublist [chartFileName group] := by
        unfold groupPicture?
        split <;> simp [pictureJob]
      rw [picturesOf_cons, List.map_append]
      exact picture.append ih

theorem files_groupJobs_sublist (outlets : Outlets) (entries : List Entry) :
    ((groupJobs outlets entries).map Job.file).Sublist
      ((groupNames entries).map chartFileName) := by
  unfold groupJobs
  cases outlets.charts with
  | none => exact List.nil_sublist _
  | some directory => exact files_picturesOf_sublist directory entries _

section Results

variable {outlets : Outlets} {results : List (FamilyPlan × Derived)}

theorem mem_groupsOf_of_mem_groupNames {group : String}
    (listed : group ∈ groupNames (groupedEntries results)) :
    group ∈ groupsOf (results.map Prod.fst) := by
  obtain ⟨entry, grouped, named⟩ := mem_groupNames_iff.mp listed
  have derived := (mem_groupedEntries_iff.mp grouped).1
  rw [groupsOf, List.mem_eraseDups, List.mem_filterMap]
  exact ⟨entry.plan, List.mem_map_of_mem derived, named⟩

/-- The files of the families have different names. -/
theorem nodup_files_of_families (agrees : ∀ result ∈ results, Agrees result)
    (stems : HasDistinctStems (results.map Prod.fst)) :
    ((results.flatMap (resultJobs outlets)).map Job.file).Nodup := by
  have apart : results.Pairwise fun first second =>
      fileStem first.1.name ≠ fileStem second.1.name := by
    have families := stems.families
    rwa [planNames, List.map_map, List.map_map, List.Nodup, List.pairwise_map] at families
  rw [List.map_flatMap, List.nodup_flatMap]
  refine ⟨fun result listed => ?_, apart.imp_of_mem fun firstListed secondListed differ => ?_⟩
  · exact (nodup_familyFiles result.1).sublist (files_resultJobs_sublist outlets (agrees _ listed))
  · intro file ofFirst ofSecond
    obtain ⟨first, firstKnown, rfl, -⟩ := mem_familyFiles.mp
      ((files_resultJobs_sublist outlets (agrees _ firstListed)).mem ofFirst)
    obtain ⟨second, secondKnown, same, -⟩ := mem_familyFiles.mp
      ((files_resultJobs_sublist outlets (agrees _ secondListed)).mem ofSecond)
    exact differ ((file_eq_iff firstKnown secondKnown).mp same).1

/-- The pictures of the groups have different names. -/
theorem nodup_files_of_groups (stems : HasDistinctStems (results.map Prod.fst)) :
    ((groupJobs outlets (groupedEntries results)).map Job.file).Nodup := by
  refine List.Nodup.sublist (files_groupJobs_sublist outlets _) ?_
  refine (nodup_groupNames _).map_on fun first firstListed second secondListed same => ?_
  have sameStem := ((file_eq_iff (by decide) (by decide)).mp same).1
  have known {group : String} (listed : group ∈ groupNames (groupedEntries results)) :
      group ∈ chartNames (results.map Prod.fst) :=
    List.mem_append_right _ (mem_groupsOf_of_mem_groupNames listed)
  exact List.inj_on_of_nodup_map stems.charts (known firstListed) (known secondListed) sameStem

/-- A group is not drawn to a file of a family. -/
theorem disjoint_files (agrees : ∀ result ∈ results, Agrees result)
    (stems : HasDistinctStems (results.map Prod.fst)) :
    ((results.flatMap (resultJobs outlets)).map Job.file).Disjoint
      ((groupJobs outlets (groupedEntries results)).map Job.file) := by
  intro file ofFamily ofGroup
  rw [List.map_flatMap, List.mem_flatMap] at ofFamily
  obtain ⟨result, listed, ofResult⟩ := ofFamily
  obtain ⟨extension, known, rfl, picture⟩ := mem_familyFiles.mp
    ((files_resultJobs_sublist outlets (agrees result listed)).mem ofResult)
  obtain ⟨group, named, same⟩ := List.mem_map.mp ((files_groupJobs_sublist outlets _).mem ofGroup)
  obtain ⟨sameStem, isPicture⟩ := (file_eq_iff (by decide) known).mp same
  have alone : result.1.name ∈
      planNames ((results.map Prod.fst).filter fun plan => plan.chart.group.isNone) :=
    name_mem_planNames (List.mem_filter.mpr ⟨List.mem_map_of_mem listed, picture isPicture.symm⟩)
  have charts := stems.charts
  rw [chartNames, List.map_append] at charts
  exact (List.nodup_append.mp charts).2.2 _ (List.mem_map_of_mem alone) _
    (List.mem_map_of_mem (mem_groupsOf_of_mem_groupNames named)) sameStem.symm

/-- No two files of a report have the same name. -/
theorem nodup_files_reportJobs (agrees : ∀ result ∈ results, Agrees result)
    (stems : HasDistinctStems (results.map Prod.fst)) :
    ((reportJobs outlets results).map Job.file).Nodup := by
  rw [reportJobs, List.map_append]
  exact (nodup_files_of_families agrees stems).append (nodup_files_of_groups stems)
    (disjoint_files agrees stems)

/-- The path of a job ends in the name of its file. -/
theorem lastSegment?_path (agrees : ∀ result ∈ results, Agrees result) {job : Job}
    (listed : job ∈ reportJobs outlets results) : lastSegment? job.path = some job.file := by
  have noSlash : '/' ∉ job.file.toList := by
    rcases List.mem_append.mp listed with ofFamily | ofGroup
    · obtain ⟨result, inResults, ofResult⟩ := List.mem_flatMap.mp ofFamily
      obtain ⟨extension, known, file, -⟩ := mem_familyFiles.mp
        ((files_resultJobs_sublist outlets (agrees result inResults)).mem
          (List.mem_map_of_mem ofResult))
      rw [file]
      exact no_slash_file _ known
    · obtain ⟨group, -, file⟩ := List.mem_map.mp
        ((files_groupJobs_sublist outlets _).mem (List.mem_map_of_mem ofGroup))
      rw [← file]
      exact no_slash_file group (by decide)
  exact lastSegment?_join noSlash job.directory

end Results

/-! ## What is written -/

/-- What was written to a path is still there: nothing is written to a file of its name
afterwards, in whatever directory. -/
def StillHolds (deeds : List Deed) (path : String) (content : Content) : Prop :=
  ∃ before after, deeds = before ++ .write path content (.ok ()) :: after ∧
    ∀ later ∈ writtenPaths after, lastSegment? later ≠ lastSegment? path

theorem stillHolds_of_nodup {deeds : List Deed} {path : String} {content : Content}
    (once : ((writtenPaths deeds).map lastSegment?).Nodup)
    (written : .write path content (.ok ()) ∈ deeds) : StillHolds deeds path content := by
  obtain ⟨before, after, rfl⟩ := List.append_of_mem written
  refine ⟨before, after, rfl, fun later listed same => ?_⟩
  have paths : writtenPaths (before ++ .write path content (.ok ()) :: after) =
      writtenPaths before ++ path :: writtenPaths after :=
    writtenPaths_append _ _
  rw [paths, List.map_append, List.map_cons] at once
  have others := (List.nodup_cons.mp (List.nodup_append.mp once).2.1).1
  exact others (List.mem_map.mpr ⟨later, listed, same⟩)

/-- Only the files of jobs are written, in their order. -/
theorem CarriedOut.writtenPaths_sublist {jobs : List Job} {deeds : List Deed}
    {failure : Option RunError} (carried : CarriedOut jobs deeds failure) :
    (writtenPaths deeds).Sublist (jobs.map Job.path) := by
  induction carried with
  | nothing => exact List.Sublist.refl _
  | done _ ih => exact ih.cons_cons _
  | failed fails =>
      cases fails with
      | noDirectory => exact List.nil_sublist _
      | noFile => exact (List.nil_sublist _).cons_cons _

/-- Jobs of which none fails are all written. -/
theorem CarriedOut.written {jobs : List Job} {deeds : List Deed} {failure : Option RunError}
    (carried : CarriedOut jobs deeds failure) (succeeded : failure = none) :
    ∀ job ∈ jobs, .write job.path job.content (.ok ()) ∈ deeds := by
  induction carried with
  | nothing => exact List.forall_mem_nil _
  | done _ ih =>
      refine List.forall_mem_cons.mpr ⟨by simp [Job.deeds], fun job listed => ?_⟩
      exact List.mem_append_right _ (ih succeeded job listed)
  | failed => cases succeeded

/-- What is written for some jobs: their files only, and all of them where nothing
fails. -/
structure WrittenFor (jobs : List Job) (deeds : List Deed) (succeeds : Prop) : Prop where
  paths : (writtenPaths deeds).Sublist (jobs.map Job.path)
  complete : succeeds → ∀ job ∈ jobs, .write job.path job.content (.ok ()) ∈ deeds

theorem WrittenFor.append {first second : List Job} {deeds more : List Deed}
    {here later : Prop} (written : WrittenFor first deeds here)
    (others : WrittenFor second more later) :
    WrittenFor (first ++ second) (deeds ++ more) (here ∧ later) where
  paths := by
    rw [writtenPaths_append, List.map_append]
    exact written.paths.append others.paths
  complete := by
    rintro ⟨here, later⟩ job listed
    rw [List.mem_append] at listed ⊢
    exact listed.imp (written.complete here job) (others.complete later job)

theorem writtenFor_of_carriedOut {jobs : List Job} {deeds : List Deed}
    {failure : Option RunError} (carried : CarriedOut jobs (requests deeds) failure) :
    WrittenFor jobs deeds (failure = none) where
  paths := writtenPaths_requests deeds ▸ carried.writtenPaths_sublist
  complete succeeded job listed := List.mem_of_mem_filter (carried.written succeeded job listed)

theorem Reported.writtenFor {outlets : Outlets} {plan : FamilyPlan} {derived : Derived}
    {deeds : List Deed} {failure : Option RunError}
    (reported : Reported outlets plan derived deeds failure) :
    WrittenFor (resultJobs outlets (plan, derived)) deeds (failure = none) := by
  cases reported with
  | underived cause => exact ⟨List.Sublist.refl _, nofun⟩
  | rendered done => exact writtenFor_of_carriedOut done.carriedOut
  | @failed output deeds cause done =>
      have written := writtenFor_of_carriedOut done.carriedOut
      refine ⟨?_, nofun⟩
      rw [writtenPaths_append]
      exact (List.append_nil _).symm ▸ written.paths

/-- What is written for the families of a report. -/
theorem AllReported.writtenFor {outlets : Outlets} {results : List (FamilyPlan × Derived)}
    {deeds : List Deed} {failures : List (Option RunError)}
    (reported : AllReported outlets results deeds failures) :
    WrittenFor (results.flatMap (resultJobs outlets)) deeds
      (∀ failure ∈ failures, failure = none) := by
  induction reported with
  | nothing => exact ⟨List.Sublist.refl _, fun _ => List.forall_mem_nil _⟩
  | next here _ ih =>
      rw [List.forall_mem_cons]
      exact here.writtenFor.append ih

/-- What is written for the results of a report. -/
theorem HandledBy.writtenFor {outlets : Outlets} {results : List (FamilyPlan × Derived)}
    {deeds : List Deed} {outcome : Except RunError Unit}
    (handled : HandledBy outlets results deeds outcome) :
    WrittenFor (reportJobs outlets results) deeds (outcome = .ok ()) := by
  obtain ⟨own, groups, failures, groupFailure, rfl, handled⟩ := handled
  rw [handled.succeeds]
  exact handled.families.writtenFor.append (writtenFor_of_carriedOut handled.drawn.carriedOut)

/-! ## Reports of selected plans -/

/-- The results of processing some plans. -/
def resultsOf (samples : List Sample) (plans : List FamilyPlan) : List (FamilyPlan × Derived) :=
  plans.map fun plan => (plan, plan.spec.process samples)

theorem agrees_resultsOf (samples : List Sample) (plans : List FamilyPlan) :
    ∀ result ∈ resultsOf samples plans, Agrees result := by
  rw [resultsOf, List.forall_mem_map]
  intro plan _ output processed
  obtain ⟨-, arranged, -, rfl⟩ := FamilySpec.process_eq_ok_iff.mp processed
  rfl

/-- Nothing of a report is overwritten: no two files have the same name, whatever was
written is still there, and where nothing fails these are the files of all jobs. -/
structure Unspoiled (jobs : List Job) (deeds : List Deed) (outcome : Except RunError Unit) :
    Prop where
  once : ((writtenPaths deeds).map lastSegment?).Nodup
  kept : ∀ path content, .write path content (.ok ()) ∈ deeds → StillHolds deeds path content
  complete : outcome = .ok () → ∀ job ∈ jobs, StillHolds deeds job.path job.content

theorem ensures_unspoiled {plans : List FamilyPlan} (stems : HasDistinctStems plans)
    (answers : Answers) (outlets : Outlets) (samples : List Sample) :
    Ensures (reportPlans answers.host outlets samples plans)
      (Unspoiled (reportJobs outlets (resultsOf samples plans))) := by
  apply (ensures_reportPlans outlets samples plans).imp
  rintro _ outcome ⟨events, work, rfl, handled⟩
  have written : WrittenFor (reportJobs outlets (resultsOf samples plans)) work
      (outcome = .ok ()) := handled.writtenFor
  have agrees := agrees_resultsOf samples plans
  have plansOfResults : (resultsOf samples plans).map Prod.fst = plans := by
    rw [resultsOf, List.map_map]
    exact List.map_id plans
  have once : ((writtenPaths (events.map .tell ++ work)).map lastSegment?).Nodup := by
    rw [writtenPaths_append, writtenPaths_map_tell, List.nil_append]
    refine List.Nodup.sublist (written.paths.map lastSegment?) ?_
    have files : ((reportJobs outlets (resultsOf samples plans)).map Job.path).map lastSegment? =
        ((reportJobs outlets (resultsOf samples plans)).map Job.file).map some := by
      rw [List.map_map, List.map_map]
      exact List.map_congr_left fun job listed => lastSegment?_path agrees listed
    rw [files]
    exact (nodup_files_reportJobs agrees (plansOfResults.symm ▸ stems)).map
      fun _ _ => Option.some.inj
  refine ⟨once, fun _ _ => stillHolds_of_nodup once, fun succeeded job listed => ?_⟩
  exact stillHolds_of_nodup once
    (List.mem_append_right _ (written.complete succeeded job listed))

/-- Selected plans have different names, but their outputs have different paths exactly when
the file names differ too.  Then a report overwrites none of its files, whatever the
disk answers. -/
theorem report_overwrites_nothing {options : Options} {settings : Settings}
    {present : List String} {plans : List FamilyPlan}
    (selected : options.plans settings present = .ok plans) :
    (planNames plans).Nodup ∧
      (∀ charts csv json, OutputsApart charts csv json plans ↔ HasDistinctStems plans) ∧
      (HasDistinctStems plans → ∀ (answers : Answers) outlets samples,
        Ensures (reportPlans answers.host outlets samples plans)
          (Unspoiled (reportJobs outlets (resultsOf samples plans)))) :=
  ⟨nodup_planNames_of_plans selected, fun _ _ _ => outputsApart_iff, ensures_unspoiled⟩

/-- The built-in families, of which two share a chart. -/
theorem report_overwrites_nothing_builtIn :
    let options : Options := Line.defaults { families := presetNames, labels := some ["total"] }
    ∃ plans, options.plans {} [] = .ok plans ∧ HasDistinctStems plans ∧
      OutputsApart "charts" "out" "out" plans ∧
      ∀ (answers : Answers) outlets samples,
        Ensures (reportPlans answers.host outlets samples plans)
          (Unspoiled (reportJobs outlets (resultsOf samples plans))) := by
  intro options
  have selects : (options.plans {} []).isOk := by decide +kernel
  cases selected : options.plans {} [] with
  | error cause => simp [selected, Except.isOk, Except.toBool] at selects
  | ok plans =>
      have stems : HasDistinctStems plans := hasDistinctStems_of_builtIn selected rfl
      obtain ⟨-, apart, unspoiled⟩ := report_overwrites_nothing selected
      exact ⟨plans, rfl, stems, (apart _ _ _).mpr stems, unspoiled stems⟩

/-- Two families whose names differ in a character that no file name keeps have one
path. -/
theorem outputs_of_families_collide :
    ¬ ∀ (options : Options) (settings : Settings) (present : List String)
      (plans : List FamilyPlan) (charts csv json : String),
      options.plans settings present = .ok plans → OutputsApart charts csv json plans := by
  intro claimed
  let family (metric : String) : FamilySettings :=
    { metric := some metric, labels := some ["x"], kind := some .instantaneous }
  let settings : Settings := { family := [family "a-b", family "a/b"] }
  let options : Options := Line.defaults { families := ["a-b", "a/b"] }
  have collide :
      (options.plans settings []).toOption.any fun plans => ¬ HasDistinctStems plans := by
    decide +kernel
  cases selected : options.plans settings [] with
  | error cause => simp [selected, Except.toOption] at collide
  | ok plans =>
      rw [selected] at collide
      have apart := claimed options settings [] plans "charts" "out" "out" selected
      exact of_decide_eq_true collide (outputsApart_iff.mp apart)

end MetricRates.Report
