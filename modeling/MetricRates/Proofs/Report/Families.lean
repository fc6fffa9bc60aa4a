import MetricRates.Proofs.Report.Groups
import MetricRates.Proofs.Report.Schedule
import MetricRates.Proofs.Results

/-!
# Every family is handled

A report goes through its families in the order of the plans.  One that was derived is
rendered, whatever became of those before it, and no failure is lost: the first of them
is that of the report.
-/

namespace MetricRates.Report

open Disk

variable {answers : Answers}

/-! ## Rendering -/

/-- The job of drawing a family that has a chart of its own. -/
def ownPicture? (outlets : Outlets) (entry : Entry) : Option Job :=
  match entry.plan.chart.group, outlets.charts with
  | none, some directory =>
      familyPicture? directory entry.output.name entry.plan.chart entry.output.derived.table
  | _, _ => none

/-- The jobs of rendering a family: its picture and its exports. -/
def familyJobs (outlets : Outlets) (entry : Entry) : List Job :=
  (ownPicture? outlets entry).toList ++
    exportJobs entry.output entry.plan.chart.unit outlets.csv outlets.json

/-- A family is rendered: its summary is printed, and its jobs are carried out up to the
first that fails. -/
structure Rendered (outlets : Outlets) (entry : Entry) (deeds : List Deed)
    (failure : Option RunError) : Prop where
  summary : printed deeds = summaryLines entry.output entry.plan
  carriedOut : CarriedOut (familyJobs outlets entry) (requests deeds) failure

theorem Works.rendered {outlets : Outlets} {entry : Entry} {deeds : List Deed}
    {failure : Option RunError} (works : Works (familyJobs outlets entry) deeds failure) :
    Rendered outlets entry ((summaryLines entry.output entry.plan).map .print ++ deeds)
      failure where
  summary := by rw [printed_append, printed_map_print, works.silent, List.append_nil]
  carriedOut := by
    rw [requests_append, requests_map_print]
    exact works.carriedOut

theorem ensures_drawOwnChart (outlets : Outlets) (entry : Entry) :
    Ensures (drawOwnChart answers.host outlets entry) fun deeds result =>
      Works (ownPicture? outlets entry).toList deeds (failure? result) := by
  unfold drawOwnChart ownPicture?
  cases entry.plan.chart.group with
  | some group => exact ensures_pure (works_tell [])
  | none =>
      cases outlets.charts with
      | none => exact ensures_pure (works_tell [])
      | some directory => exact ensures_drawFamily directory _ _ _

theorem ensures_renderFamily (outlets : Outlets) (entry : Entry) :
    Ensures (renderFamily answers.host outlets entry) fun deeds result =>
      Rendered outlets entry deeds (failure? result) := by
  apply (ensures_printAll _).bind
  rintro _ _ rfl
  apply (ensures_drawOwnChart outlets entry).bind
  rintro drawing (cause | path) drawn
  · refine ensures_pure (Works.rendered ?_)
    rw [List.append_nil]
    exact drawn.stop _
  · apply (ensures_tellChart path).bind
    intro telling _ told
    apply (ensures_exportOutput entry.output _ _ _).bind
    rintro exporting (cause | paths) exported
    · refine ensures_pure (Works.rendered ?_)
      rw [List.append_nil]
      exact drawn.append (told.append exported)
    · apply (ensures_tellAll _).bind
      rintro _ _ rfl
      refine ensures_pure (Works.rendered ?_)
      rw [List.append_nil]
      exact drawn.append (told.append (exported.tells _))

/-! ## Families one after another -/

/-- What is done about a family as it was derived, and how it fails: a failure is told. -/
inductive Reported (outlets : Outlets) (plan : FamilyPlan) :
    Derived → List Deed → Option RunError → Prop
  | underived (cause : EngineError) :
      Reported outlets plan (.error cause) [.tell (familyFailure plan (.engine cause))]
        (some (.engine cause))
  | rendered {output : FamilyOutput} {deeds : List Deed} :
      Rendered outlets ⟨plan, output⟩ deeds none → Reported outlets plan (.ok output) deeds none
  | failed {output : FamilyOutput} {deeds : List Deed} {cause : RunError} :
      Rendered outlets ⟨plan, output⟩ deeds (some cause) →
        Reported outlets plan (.ok output) (deeds ++ [.tell (familyFailure plan cause)])
          (some cause)

/-- Every family is reported, in the order of the results, and each has its own outcome. -/
inductive AllReported (outlets : Outlets) :
    List (FamilyPlan × Derived) → List Deed → List (Option RunError) → Prop
  | nothing : AllReported outlets [] [] []
  | next {plan : FamilyPlan} {derived : Derived} {results : List (FamilyPlan × Derived)}
      {deeds more : List Deed} {failure : Option RunError} {failures : List (Option RunError)} :
      Reported outlets plan derived deeds failure → AllReported outlets results more failures →
        AllReported outlets ((plan, derived) :: results) (deeds ++ more) (failure :: failures)

theorem ensures_reportFamily (outlets : Outlets) (plan : FamilyPlan) (derived : Derived) :
    Ensures (reportFamily answers.host outlets plan derived) (Reported outlets plan derived) := by
  cases derived with
  | error cause =>
      simp only [reportFamily, pure_bind]
      apply (ensures_tell _).bind
      rintro _ _ rfl
      exact ensures_pure (Reported.underived cause)
  | ok output =>
      apply (ensures_renderFamily outlets ⟨plan, output⟩).bind
      rintro deeds (cause | ⟨⟨⟩⟩) rendered
      · apply (ensures_tell _).bind
        rintro _ _ rfl
        refine ensures_pure ?_
        rw [List.append_nil]
        exact Reported.failed rendered
      · refine ensures_pure ?_
        rw [List.append_nil]
        exact Reported.rendered rendered

theorem ensures_reportFamilies (outlets : Outlets) (results : List (FamilyPlan × Derived)) :
    Ensures (reportFamilies answers.host outlets results) fun deeds causes =>
      ∃ failures, AllReported outlets results deeds failures ∧ causes = failures.filterMap id := by
  induction results with
  | nil => exact ensures_pure ⟨[], AllReported.nothing, rfl⟩
  | cons result results ih =>
      apply (ensures_reportFamily outlets result.1 result.2).bind
      intro deeds failure reported
      apply ih.bind
      rintro more _ ⟨failures, rest, rfl⟩
      refine ensures_pure ⟨failure :: failures, ?_, ?_⟩
      · rw [List.append_nil]
        exact AllReported.next reported rest
      · cases failure <;> rfl

/-! ## What families and groups see -/

/-- The summary of a family that was derived. -/
def summaryOf (result : FamilyPlan × Derived) : List String :=
  match result.2 with
  | .ok output => summaryLines output result.1
  | .error _ => []

theorem Reported.printed_eq {outlets : Outlets} {plan : FamilyPlan} {derived : Derived}
    {deeds : List Deed} {failure : Option RunError}
    (reported : Reported outlets plan derived deeds failure) :
    printed deeds = summaryOf (plan, derived) := by
  cases reported with
  | underived cause => rfl
  | rendered done => exact done.summary
  | failed done =>
      rw [printed_append, done.summary]
      exact List.append_nil _

/-- The summaries of all families that were derived are printed, in the order of the
results. -/
theorem AllReported.printed_eq {outlets : Outlets} {results : List (FamilyPlan × Derived)}
    {deeds : List Deed} {failures : List (Option RunError)}
    (reported : AllReported outlets results deeds failures) :
    printed deeds = results.flatMap summaryOf := by
  induction reported with
  | nothing => rfl
  | next here _ ih => rw [printed_append, here.printed_eq, ih, List.flatMap_cons]

/-- The families that are kept for the groups are exactly those that were derived and have
a group, in their order. -/
theorem map_groupedEntries (results : List (FamilyPlan × Derived)) :
    ((groupedEntries results).map fun entry => (entry.plan, .ok entry.output)) =
      results.filter fun result => result.1.chart.group.isSome && result.2.isOk := by
  induction results with
  | nil => rfl
  | cons result rest ih =>
      obtain ⟨plan, cause | output⟩ := result
      · rw [List.filter_cons_of_neg (by simp [Except.isOk, Except.toBool]), ← ih]
        rfl
      · by_cases grouped : plan.chart.group.isSome = true
        · rw [List.filter_cons_of_pos (by simp [grouped, Except.isOk, Except.toBool]), ← ih]
          simp [groupedEntries, grouped]
        · rw [List.filter_cons_of_neg (by simp [grouped]), ← ih]
          simp [groupedEntries, grouped]

theorem mem_groupedEntries_iff {results : List (FamilyPlan × Derived)} {entry : Entry} :
    entry ∈ groupedEntries results ↔
      (entry.plan, .ok entry.output) ∈ results ∧ entry.plan.chart.group.isSome = true := by
  have injective : Function.Injective fun entry : Entry =>
      (entry.plan, (.ok entry.output : Derived)) := by
    rintro ⟨plan, output⟩ ⟨otherPlan, otherOutput⟩ same
    cases same
    rfl
  rw [← List.mem_map_of_injective injective, map_groupedEntries, List.mem_filter]
  simp [Except.isOk, Except.toBool]

/-- A family that was derived is a panel of its group, whatever its rendering came to. -/
theorem panel_mem_groupPanels {results : List (FamilyPlan × Derived)} {plan : FamilyPlan}
    {output : FamilyOutput} {group : String} (listed : (plan, .ok output) ∈ results)
    (grouped : plan.chart.group = some group) :
    group ∈ groupNames (groupedEntries results) ∧
      Entry.panel ⟨plan, output⟩ ∈ groupPanels (groupedEntries results) group := by
  have kept : ⟨plan, output⟩ ∈ groupedEntries results :=
    mem_groupedEntries_iff.mpr ⟨listed, Option.isSome_of_eq_some grouped⟩
  constructor
  · exact mem_groupNames_iff.mpr ⟨_, kept, grouped⟩
  · exact List.mem_map_of_mem (List.mem_filter.mpr ⟨kept, by simp [grouped]⟩)

/-! ## The first failure -/

/-- The first value that is present is the first fault where a value is the fault of its
option. -/
theorem filterMap_id_eq_cons_iff {α : Type} {options : List (Option α)} {a : α} :
    (∃ rest, options.filterMap id = a :: rest) ↔
      FirstFault (options.map fun option other => option = some other) a := by
  induction options with
  | nil => simp [FirstFault]
  | cons option options ih =>
      rw [List.map_cons, FirstFault, ← ih]
      cases option with
      | none => simp
      | some first => simp

/-- How a report goes: all families are reported, then the groups are drawn.  What was
derived is printed and belongs to its group whatever failed, and the failure of the report
is the first of a family or, where no family failed, that of the groups. -/
structure Handled (outlets : Outlets) (results : List (FamilyPlan × Derived))
    (own groups : List Deed) (failures : List (Option RunError)) (groupFailure : Option RunError)
    (outcome : Except RunError Unit) : Prop where
  families : AllReported outlets results own failures
  summaries : printed own = results.flatMap summaryOf
  panels : ∀ plan output group, (plan, .ok output) ∈ results → plan.chart.group = some group →
    group ∈ groupNames (groupedEntries results) ∧
      Entry.panel ⟨plan, output⟩ ∈ groupPanels (groupedEntries results) group
  drawn : Works (groupJobs outlets (groupedEntries results)) groups groupFailure
  succeeds : outcome = .ok () ↔ (∀ failure ∈ failures, failure = none) ∧ groupFailure = none
  fails : ∀ cause, outcome = .error cause ↔
    FirstFault ((failures ++ [groupFailure]).map fun failure cause => failure = some cause) cause

/-- The failure of a report is the first cause that there is. -/
theorem handled_of_first {outlets : Outlets} {results : List (FamilyPlan × Derived)}
    {own groups : List Deed} {failures : List (Option RunError)} {groupFailure : Option RunError}
    {outcome : Except RunError Unit} (families : AllReported outlets results own failures)
    (drawn : Works (groupJobs outlets (groupedEntries results)) groups groupFailure)
    (first : outcome = match failures.filterMap id ++ groupFailure.toList with
      | [] => .ok ()
      | cause :: _ => .error cause) :
    Handled outlets results own groups failures groupFailure outcome := by
  have causes : failures.filterMap id ++ groupFailure.toList =
      (failures ++ [groupFailure]).filterMap id := by
    rw [List.filterMap_append]
    cases groupFailure <;> rfl
  have unfailing : (failures ++ [groupFailure]).filterMap id = [] ↔
      (∀ failure ∈ failures, failure = none) ∧ groupFailure = none := by
    rw [List.filterMap_eq_nil_iff, List.forall_mem_append, List.forall_mem_singleton]
    rfl
  rw [causes] at first
  refine ⟨families, families.printed_eq, fun _ _ _ => panel_mem_groupPanels, drawn, ?_, ?_⟩
  · rw [← unfailing, first]
    cases (failures ++ [groupFailure]).filterMap id <;> simp
  · intro cause
    rw [← filterMap_id_eq_cons_iff, first]
    cases (failures ++ [groupFailure]).filterMap id <;> simp

/-- Deeds and an outcome are those of a report of results. -/
def HandledBy (outlets : Outlets) (results : List (FamilyPlan × Derived)) (deeds : List Deed)
    (outcome : Except RunError Unit) : Prop :=
  ∃ own groups failures groupFailure, deeds = own ++ groups ∧
    Handled outlets results own groups failures groupFailure outcome

theorem ensures_reportResults (outlets : Outlets) (results : List (FamilyPlan × Derived)) :
    Ensures (reportResults answers.host outlets results) (HandledBy outlets results) := by
  apply (ensures_reportFamilies outlets results).bind
  rintro own _ ⟨failures, families, rfl⟩
  apply (ensures_reportGroups outlets _).bind
  intro groups groupFailure drawn
  -- The result is a match on the causes, so both its cases are met by the same account.
  cases causes : failures.filterMap id ++ groupFailure.toList with
  | nil =>
      refine ensures_pure ⟨own, groups, failures, groupFailure, by rw [List.append_nil], ?_⟩
      exact handled_of_first families drawn (by rw [causes])
  | cons cause rest =>
      refine ensures_pure ⟨own, groups, failures, groupFailure, by rw [List.append_nil], ?_⟩
      exact handled_of_first families drawn (by rw [causes])

/-- A report of plans tells of the events of their families and reports the results of
processing the plans one by one. -/
theorem ensures_reportPlans (outlets : Outlets) (samples : List Sample)
    (plans : List FamilyPlan) :
    Ensures (reportPlans answers.host outlets samples plans)
      fun deeds outcome => ∃ (events : List Event) (work : List Deed),
        deeds = events.map .tell ++ work ∧
        HandledBy outlets (plans.map fun plan => (plan, plan.spec.process samples))
          work outcome := by
  apply (ensures_tellAll _).bind
  rintro _ _ rfl
  rw [zip_deriveAll]
  apply (ensures_reportResults outlets _).imp
  exact fun work outcome handled => ⟨_, work, rfl, handled⟩

/-- A report of results handles every family, and so does one of plans, whose results are
those of processing the plans one by one. -/
theorem report_handles_every_family (answers : Answers) (outlets : Outlets) :
    (∀ results, Ensures (reportResults answers.host outlets results) (HandledBy outlets results)) ∧
    ∀ samples plans, Ensures (reportPlans answers.host outlets samples plans)
      fun deeds outcome => ∃ (events : List Event) (work : List Deed),
        deeds = events.map .tell ++ work ∧
        HandledBy outlets (plans.map fun plan => (plan, plan.spec.process samples)) work outcome :=
  ⟨ensures_reportResults outlets, ensures_reportPlans outlets⟩

end MetricRates.Report
