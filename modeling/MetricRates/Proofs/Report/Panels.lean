import Mathlib.Data.List.Induction
import MetricRates.Proofs.Chart.Plots
import MetricRates.Proofs.Report.Families

/-!
# Panels of groups

The families with a group are divided among the groups, which are drawn in the order in
which they come first.  Each of these families is a panel of its own group and of no other,
and it has no chart by itself; a family without a group is a panel of none.
-/

namespace MetricRates.Report

open Chart Disk

/-! ## Groups in the order in which they come first -/

/-- The position of the first family of a group. -/
def firstOf (entries : List Entry) (group : String) : Nat :=
  entries.findIdx fun entry => entry.plan.chart.group == some group

/-- A family behind the others adds its group to theirs, unless it has none or a known one. -/
theorem groupNames_concat_cases (entries : List Entry) (entry : Entry) :
    groupNames (entries ++ [entry]) = groupNames entries ∨
      ∃ group, entry.plan.chart.group = some group ∧ group ∉ groupNames entries ∧
        groupNames (entries ++ [entry]) = groupNames entries ++ [group] := by
  rw [groupNames, groupNames, List.filterMap_append, List.eraseDups_append, List.filterMap_cons]
  generalize entries.filterMap (fun entry => entry.plan.chart.group) = groups
  cases entry.plan.chart.group with
  | none => exact Or.inl (List.append_nil _)
  | some group =>
      by_cases known : group ∈ groups
      · left
        simp [List.removeAll, known]
      · right
        exists group
        simp [List.removeAll, known, List.eraseDups_cons]

theorem firstOf_lt_length {entries : List Entry} {group : String}
    (listed : group ∈ groupNames entries) : firstOf entries group < entries.length := by
  obtain ⟨entry, member, grouped⟩ := mem_groupNames_iff.mp listed
  exact List.findIdx_lt_length_of_exists ⟨entry, member, by simp [grouped]⟩

/-- Families behind the others do not change where a group comes first. -/
theorem firstOf_append {entries : List Entry} {group : String}
    (listed : group ∈ groupNames entries) (more : List Entry) :
    firstOf (entries ++ more) group = firstOf entries group := by
  rw [firstOf, List.findIdx_append]
  exact if_pos (firstOf_lt_length listed)

theorem length_le_firstOf_append {entries : List Entry} {group : String}
    (unlisted : group ∉ groupNames entries) (more : List Entry) :
    entries.length ≤ firstOf (entries ++ more) group := by
  have missing : ¬ firstOf entries group < entries.length := by
    intro found
    obtain ⟨entry, member, grouped⟩ := List.findIdx_lt_length.mp found
    exact unlisted (mem_groupNames_iff.mpr ⟨entry, member, by simpa using grouped⟩)
  rw [firstOf, List.findIdx_append, ← firstOf, if_neg missing]
  exact Nat.le_add_left ..

/-- The groups are in the order in which they come first: a family behind the others can
only add a group behind all of theirs. -/
theorem pairwise_firstOf_groupNames (entries : List Entry) :
    (groupNames entries).Pairwise fun earlier later =>
      firstOf entries earlier < firstOf entries later := by
  induction entries using List.reverseRecOn with
  | nil => exact List.Pairwise.nil
  | append_singleton entries entry ih =>
      have kept : (groupNames entries).Pairwise fun earlier later =>
          firstOf (entries ++ [entry]) earlier < firstOf (entries ++ [entry]) later := by
        apply ih.imp_of_mem
        intro earlier later listed listedToo less
        rwa [firstOf_append listed, firstOf_append listedToo]
      rcases groupNames_concat_cases entries entry with same | ⟨group, -, unlisted, added⟩
      · rwa [same]
      · rw [added, List.pairwise_append]
        refine ⟨kept, List.pairwise_singleton _ _, ?_⟩
        intro earlier listed later isNew
        rw [List.mem_singleton.mp isNew, firstOf_append listed]
        exact Nat.lt_of_lt_of_le (firstOf_lt_length listed)
          (length_le_firstOf_append unlisted [entry])

/-! ## Families among the groups -/

/-- The panels of a group are the families with this group, in their order. -/
theorem groupPanels_eq_filter (entries : List Entry) (group : String) :
    groupPanels entries group =
      (entries.map Entry.panel).filter fun panel => panel.style.group == some group := by
  rw [groupPanels, List.filter_map]
  rfl

/-- Keys that are told apart divide the items that have one of them. -/
theorem flatMap_filter_key_perm {α κ : Type} [BEq κ] [LawfulBEq κ] {keys : List κ}
    (distinct : keys.Nodup) (keyOf : α → κ) (items : List α) :
    (keys.flatMap fun key => items.filter (keyOf · == key)).Perm
      (items.filter (keyOf · ∈ keys)) := by
  induction keys with
  | nil => simp
  | cons key keys ih =>
      obtain ⟨isNew, distinctLater⟩ := List.nodup_cons.mp distinct
      -- The items of all keys are those of the first key and those of the others.
      have here : items.filter (keyOf · == key) =
          (items.filter (keyOf · ∈ key :: keys)).filter (keyOf · == key) := by
        rw [List.filter_filter]
        apply List.filter_congr
        intro item _
        by_cases same : keyOf item = key <;> simp [same]
      have later : items.filter (keyOf · ∈ keys) =
          (items.filter (keyOf · ∈ key :: keys)).filter fun item => !(keyOf item == key) := by
        rw [List.filter_filter]
        apply List.filter_congr
        intro item _
        by_cases same : keyOf item = key <;> simp [same, isNew]
      rw [List.flatMap_cons]
      apply ((ih distinctLater).append_left _).trans
      rw [here, later]
      exact List.filter_append_perm ..

/-- Each family with a group is a panel of exactly one group. -/
theorem flatMap_groupPanels_perm (entries : List Entry) :
    ((groupNames entries).flatMap (groupPanels entries)).Perm
      ((entries.filter fun entry => entry.plan.chart.group.isSome).map Entry.panel) := by
  have distinct : ((groupNames entries).map some).Nodup :=
    (nodup_groupNames entries).map fun _ _ => Option.some.inj
  have grouped : (entries.filter fun entry => entry.plan.chart.group.isSome) =
      entries.filter (·.plan.chart.group ∈ (groupNames entries).map some) := by
    apply List.filter_congr
    intro entry listed
    cases own : entry.plan.chart.group with
    | none => simp
    | some group =>
        have known : group ∈ groupNames entries := mem_groupNames_iff.mpr ⟨entry, listed, own⟩
        simp [known]
  have divided := flatMap_filter_key_perm distinct (fun entry => entry.plan.chart.group) entries
  rw [List.flatMap_map, ← grouped] at divided
  have panels := divided.map Entry.panel
  rwa [List.map_flatMap] at panels

/-! ## Drawing where nothing is refused -/

variable {answers : Answers}

/-- Either all is done that is asked for, with a value, or the disk refuses a change and there
is an error. -/
inductive Completed {α : Type} (done : List Deed → α → Prop) :
    List Deed → Except RunError α → Prop
  | all {deeds : List Deed} {value : α} : done deeds value → Completed done deeds (.ok value)
  | refused {deeds : List Deed} {cause : RunError} :
      deeds.any Deed.isRefused = true → Completed done deeds (.error cause)

namespace Completed

variable {α : Type} {done : List Deed → α → Prop} {deeds : List Deed}
  {result : Except RunError α}

theorem after {whole : List Deed → α → Prop} (completed : Completed done deeds result)
    (before : List Deed) (follows : ∀ value, done deeds value → whole (before ++ deeds) value) :
    Completed whole (before ++ deeds) result := by
  cases completed with
  | all met => exact .all (follows _ met)
  | refused refusal => exact .refused (by rw [List.any_append, refusal, Bool.or_true])

/-- Where nothing that is asked for is refused, all is done exactly if nothing is refused. -/
theorem eq_ok_iff {done : List Deed → Unit → Prop} {result : Except RunError Unit}
    (completed : Completed done deeds result)
    (granted : done deeds () → deeds.any Deed.isRefused = false) :
    result = .ok () ↔ deeds.any Deed.isRefused = false := by
  cases completed with
  | all met => exact iff_of_true rfl (granted met)
  | refused refusal => simp [refusal]

theorem done_of_eq_ok {value : α} (completed : Completed done deeds result)
    (succeeded : result = .ok value) : done deeds value := by
  cases completed with
  | all met =>
      cases succeeded
      exact met
  | refused => cases succeeded

end Completed

/-- The telling of a chart, if there is one. -/
def chartTold (path : Option String) : List Deed :=
  path.toList.map fun path => .tell (.info ("Chart written to '" ++ path ++ "'"))

theorem ensures_tellChart_chartTold (path : Option String) :
    Ensures (tellChart answers.host path) fun deeds _ => deeds = chartTold path := by
  cases path with
  | none => exact ensures_pure rfl
  | some path => exact ensures_tell _

/-! ## Panels with rows -/

/-- The table of a panel has rows. -/
def Panel.HasRows (panel : Panel) : Prop :=
  panel.table.index ≠ []

instance (panel : Panel) : Decidable panel.HasRows :=
  inferInstanceAs (Decidable (panel.table.index ≠ []))

theorem isEmpty_table_eq (panel : Panel) : panel.table.isEmpty = decide (¬ panel.HasRows) := by
  rw [Bool.eq_iff_iff, decide_eq_true_iff, Panel.HasRows, Decidable.not_not]
  exact List.isEmpty_iff

theorem drawnPanels_eq (panels : List Panel) :
    drawnPanels panels = panels.filter fun panel => panel.HasRows := by
  apply List.filter_congr
  intro panel _
  simp [isEmpty_table_eq]

theorem hasRows_of_mem_drawnPanels {panels : List Panel} {panel : Panel}
    (drawn : panel ∈ drawnPanels panels) : panel.HasRows := by
  rw [drawnPanels_eq] at drawn
  exact of_decide_eq_true (List.mem_filter.mp drawn).2

/-- A picture shows panels: from top to bottom there is one plot for each, as high as all the
others, and they share a time axis since the earliest first row of any of them, which is
labelled below the last. -/
structure Shows (panels : List Panel) (picture : Picture) : Prop where
  width : picture.width = 1600
  height : picture.height = 400 * panels.length
  labels : picture.plots.map Plot.timeLabel =
    List.replicate (panels.length - 1) "" ++ ["Elapsed Time (seconds)"]
  plots : ∃ origin axis, IsOrigin (panels.map Panel.table) origin ∧
    List.Forall₂ (fun panel plot => Portrays origin axis panel.style panel.table plot) panels
      picture.plots

theorem shows_panelsPicture {panels : List Panel} (rows : ∀ panel ∈ panels, panel.HasRows)
    (drawn : panels ≠ []) : Shows panels (panelsPicture panels) where
  width := rfl
  height := by
    have positive : 1 ≤ panels.length := List.length_pos_iff.mpr drawn
    rw [panelsPicture, panelHeight, Nat.max_eq_left positive]
  labels := by
    have some : panels.map Panel.styled ≠ [] := mt List.map_eq_nil_iff.mp drawn
    rw [panelsPicture, timeLabels_panelPlots some, List.length_map, elapsedTime]
  plots := by
    obtain ⟨panel, listed⟩ := List.exists_mem_of_ne_nil panels drawn
    have some : ∃ entry ∈ panels.map Panel.styled, entry.2.index ≠ [] :=
      ⟨_, List.mem_map_of_mem listed, rows panel listed⟩
    obtain ⟨origin, axis, isOrigin, portrayed⟩ := exists_portrays_panelPlots some
    rw [List.map_map] at isOrigin
    exact ⟨origin, axis, isOrigin, List.forall₂_map_left_iff.mp portrayed⟩

/-- The telling of the panels that have no rows. -/
def rowlessTold (group : String) (panels : List Panel) : List Deed :=
  (panels.filter fun panel => ¬ panel.HasRows).map fun panel =>
    .tell (.warn ("Family '" ++ panel.name ++ "' has no rows; left out of '" ++ group ++ "'"))

/-- What is done about a group where nothing is refused.  Panels without rows are told, and
those with rows are drawn into one picture.  If no panel has rows, there is neither a picture
nor a directory for it. -/
inductive GroupDone (directory group : String) (panels : List Panel) : List Deed → Prop
  | drawn {shown : List Panel} {picture : Picture} {path : String}
      (rows : shown = panels.filter fun panel => panel.HasRows) (any : shown ≠ [])
      (shows : Shows shown picture) (named : path = join directory (fileStem group ++ ".png")) :
      GroupDone directory group panels
        (rowlessTold group panels ++
          [.make directory (.ok ()),
            .tell (.info ("Plotting " ++ group ++ " (" ++ toString shown.length ++ " panels)...")),
            .write path (.ofPicture picture) (.ok ()),
            .tell (.info ("Chart written to '" ++ path ++ "'"))])
  | skipped (noRows : ∀ panel ∈ panels, ¬ panel.HasRows) :
      GroupDone directory group panels
        (rowlessTold group panels ++
          [.tell (.warn ("Chart group '" ++ group ++ "' has no rows; chart skipped"))])

theorem GroupDone.any_isRefused {directory group : String} {panels : List Panel}
    {deeds : List Deed} (done : GroupDone directory group panels deeds) :
    deeds.any Deed.isRefused = false := by
  cases done with
  | drawn => simp [rowlessTold, Deed.isRefused]
  | skipped => simp [rowlessTold, Deed.isRefused]

theorem any_isRefused_flatten {directory : String} {panelsOf : String → List Panel}
    {groups : List String} {parts : List (List Deed)}
    (done : List.Forall₂ (fun group => GroupDone directory group (panelsOf group)) groups parts) :
    parts.flatten.any Deed.isRefused = false := by
  induction done with
  | nil => rfl
  | cons here _ ih =>
      rw [List.flatten_cons, List.any_append, here.any_isRefused, ih]
      rfl

theorem map_leftOut_eq (group : String) (panels : List Panel) :
    ((panels.filter fun panel => panel.table.isEmpty).map (leftOut group)).map Deed.tell =
      rowlessTold group panels := by
  have rowless : (panels.filter fun panel => panel.table.isEmpty) =
      panels.filter fun panel => ¬ panel.HasRows :=
    List.filter_congr fun panel _ => isEmpty_table_eq panel
  rw [rowless, List.map_map]
  rfl

theorem completed_of_groupRun {directory group : String} {panels : List Panel}
    {deeds : List Deed} {result : Except RunError (Option String)}
    (run : GroupRun directory group panels deeds result) :
    Completed (fun deeds path => GroupDone directory group panels (deeds ++ chartTold path))
      deeds result := by
  cases run with
  | skipped undrawn =>
      apply Completed.all
      rw [map_leftOut_eq, chartTold, Option.toList_none, List.map_nil, List.append_nil]
      rw [drawnPanels_eq] at undrawn
      exact .skipped (by simpa using undrawn)
  | drawn rows run =>
      rw [map_leftOut_eq]
      cases run with
      | noDirectory => exact .refused (by simp [Deed.isRefused])
      | noFile => exact .refused (by simp [Deed.isRefused])
      | done =>
          apply Completed.all
          rw [List.append_assoc]
          exact .drawn (drawnPanels_eq panels) rows
            (shows_panelsPicture (fun _ => hasRows_of_mem_drawnPanels) rows) rfl

theorem ensures_drawGroups_completed (directory : String) (entries : List Entry)
    (groups : List String) :
    Ensures (drawGroups answers.host directory entries groups)
      (Completed fun deeds _ => ∃ parts, deeds = parts.flatten ∧ List.Forall₂
        (fun group => GroupDone directory group (groupPanels entries group)) groups parts) := by
  induction groups with
  | nil => exact ensures_pure (.all ⟨[], rfl, .nil⟩)
  | cons group groups ih =>
      apply (ensures_drawGroup directory group _).bind
      intro deeds result run
      cases completed_of_groupRun run with
      | refused refusal =>
          refine ensures_pure (.refused ?_)
          rwa [List.append_nil]
      | all done =>
          apply (ensures_tellChart_chartTold _).bind
          rintro _ _ rfl
          apply ih.imp
          intro more result rest
          -- The telling of the chart belongs to this group, though it follows its drawing.
          rw [← List.append_assoc]
          apply rest.after
          rintro ⟨⟩ ⟨parts, rfl, others⟩
          exact ⟨_ :: parts, rfl, .cons done others⟩

/-- Nothing is asked of the disk for a group without rows, whatever it would answer. -/
theorem ensures_drawGroup_of_empty (directory group : String) {panels : List Panel}
    (noRows : ∀ panel ∈ panels, ¬ panel.HasRows) :
    Ensures (drawGroup answers.host directory group panels) fun deeds _ => requests deeds = [] := by
  apply (ensures_drawGroup directory group panels).imp
  intro deeds result run
  cases run with
  | skipped =>
      rw [requests_append, requests_map_tell]
      rfl
  | drawn rows =>
      obtain ⟨panel, drawn⟩ := List.exists_mem_of_ne_nil _ rows
      exact absurd (hasRows_of_mem_drawnPanels drawn) (noRows panel (List.mem_filter.mp drawn).1)

/-! ## Charts of families by themselves -/

/-- What is written belongs to one of the jobs. -/
theorem CarriedOut.exists_job {jobs : List Job} {deeds : List Deed} {failure : Option RunError}
    (carried : CarriedOut jobs deeds failure) {path : String} {content : Content}
    {answer : Except DiskError Unit} (written : .write path content answer ∈ deeds) :
    ∃ job ∈ jobs, job.path = path ∧ job.content = content := by
  induction carried with
  | nothing => cases written
  | @done job jobs deeds failure _ ih =>
      rcases List.mem_append.mp written with here | later
      · exists job, List.mem_cons_self
        simp only [Job.deeds, List.mem_cons, List.not_mem_nil, reduceCtorEq, Deed.write.injEq,
          false_or, or_false] at here
        exact ⟨here.1.symm, here.2.1.symm⟩
      · obtain ⟨job, listed, own⟩ := ih later
        exact ⟨job, List.mem_cons_of_mem _ listed, own⟩
  | @failed job jobs deeds cause fails =>
      exists job, List.mem_cons_self
      cases fails with
      | noDirectory => simp at written
      | noFile =>
          simp only [List.mem_cons, List.not_mem_nil, reduceCtorEq, Deed.write.injEq,
            false_or, or_false] at written
          exact ⟨written.1.symm, written.2.1.symm⟩

/-- The only picture among the jobs of a family is its own chart, which a family with a
group has not. -/
theorem group_eq_none_of_picture {outlets : Outlets} {entry : Entry} {job : Job}
    (listed : job ∈ familyJobs outlets entry) {picture : Picture}
    (drawn : job.content = .ofPicture picture) : entry.plan.chart.group = none := by
  have notText {directory : Option String} {file text : String} :
      textJob? directory file text ≠ some job := by
    intro ofText
    obtain ⟨_, -, rfl⟩ := Option.map_eq_some_iff.mp ofText
    cases drawn
  rw [familyJobs, exportJobs, List.mem_append, List.mem_append, Option.mem_toList,
    Option.mem_toList, Option.mem_toList] at listed
  rcases listed with own | csv | json
  · unfold ownPicture? at own
    split at own
    · assumption
    · cases own
  · exact absurd csv notText
  · exact absurd json notText

theorem ensures_reportFamily_pictures (outlets : Outlets) (plan : FamilyPlan) (derived : Derived) :
    Ensures (reportFamily answers.host outlets plan derived) fun deeds _ =>
      ∀ path picture answer, .write path (.ofPicture picture) answer ∈ deeds →
        plan.chart.group = none := by
  have ungrouped {output : FamilyOutput} {deeds : List Deed} {failure : Option RunError}
      (rendered : Rendered outlets ⟨plan, output⟩ deeds failure) {path : String}
      {picture : Picture} {answer : Except DiskError Unit}
      (written : .write path (.ofPicture picture) answer ∈ deeds) :
      plan.chart.group = none := by
    have requested : .write path (.ofPicture picture) answer ∈ requests deeds :=
      List.mem_filter.mpr ⟨written, rfl⟩
    obtain ⟨job, listed, -, drawn⟩ := rendered.carriedOut.exists_job requested
    exact group_eq_none_of_picture listed drawn
  apply (ensures_reportFamily outlets plan derived).imp
  intro deeds failure reported path picture answer written
  cases reported with
  | underived => simp at written
  | rendered done => exact ungrouped done written
  | failed done =>
      rcases List.mem_append.mp written with own | told
      · exact ungrouped done own
      · simp at told

/-! ## The partition -/

end MetricRates.Report
