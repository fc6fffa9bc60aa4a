import MetricRates.Proofs.Settings.Catalog
import MetricRates.Proofs.Table.Arrangement
import MetricRates.Settings.Selected

/-!
# Which families are selected

The families that are asked for are selected once each, in the order in which they
are asked for first; where none are asked for, the known families whose metric is in
the input are selected in their order.  A selected family is the known one but for
the window and the labels that the options give.
-/

namespace MetricRates

open Command

/-! ## Choosing among the known families -/

theorem familyNamed_eq_ok {known : List FamilyPlan} {name : String} {plan : FamilyPlan}
    (found : familyNamed known name = .ok plan) : plan ∈ known ∧ plan.name = name := by
  unfold familyNamed at found
  cases first : known.find? fun plan => plan.name == name with
  | none => simp [first] at found
  | some other =>
      simp only [first, Except.ok.injEq] at found
      subst found
      exact ⟨List.mem_of_find?_eq_some first, by simpa using List.find?_some first⟩

/-- The chosen families are those that are asked for, once each, or those whose metric
is in the input. -/
structure IsChoice (requested present : List String) (known chosen : List FamilyPlan) : Prop where
  asked : requested ≠ [] →
    List.Forall₂ (fun name family => family ∈ known ∧ family.name = name) requested.eraseDups chosen
  unasked : requested = [] →
    chosen = known.filter fun family => decide (family.spec.metric ∈ present)

theorem isChoice_of_chosenFamilies {requested present : List String}
    {known chosen : List FamilyPlan}
    (chose : chosenFamilies requested present known = .ok chosen) :
    IsChoice requested present known chosen := by
  unfold chosenFamilies at chose
  by_cases unasked : requested = []
  · rw [if_pos (by simpa using unasked)] at chose
    refine ⟨fun asked => absurd unasked asked, fun _ => ?_⟩
    rw [← Except.ok.inj chose]
    exact List.filter_congr fun family _ => by simp [FamilyPlan.isPresent]
  · rw [if_neg (by simpa using unasked), mapM_eq_ok_iff] at chose
    exact ⟨fun _ => chose.imp fun _ _ => familyNamed_eq_ok, fun none => absurd none unasked⟩

theorem IsChoice.mem_known {requested present : List String} {known chosen : List FamilyPlan}
    (choice : IsChoice requested present known chosen) {family : FamilyPlan}
    (listed : family ∈ chosen) : family ∈ known := by
  by_cases unasked : requested = []
  · rw [choice.unasked unasked] at listed
    exact (List.mem_filter.mp listed).1
  · have families : List.Forall₂ (fun family name => family ∈ known ∧ family.name = name) chosen
        requested.eraseDups :=
      (choice.asked unasked).flip
    exact ((List.forall₂_and_left chosen _).mp families).1 family listed

/-- The families that are asked for are chosen by their names. -/
theorem IsChoice.planNames_of_asked {requested present : List String}
    {known chosen : List FamilyPlan} (choice : IsChoice requested present known chosen)
    (asked : requested ≠ []) : planNames chosen = requested.eraseDups := by
  have named : List.Forall₂ (fun name family => name = family.name) requested.eraseDups chosen :=
    (choice.asked asked).imp fun _ _ found => found.2.symm
  rw [← List.forall₂_map_right_iff, List.forall₂_eq_eq_eq] at named
  exact named.symm

/-- No two chosen families have the same name. -/
theorem IsChoice.nodup {requested present : List String} {known chosen : List FamilyPlan}
    (choice : IsChoice requested present known chosen) (distinct : (planNames known).Nodup) :
    (planNames chosen).Nodup := by
  by_cases unasked : requested = []
  · rw [choice.unasked unasked]
    exact distinct.sublist (List.filter_sublist.map _)
  · rw [choice.planNames_of_asked unasked]
    exact nodup_eraseDups requested

/-! ## Selected plans -/

/-- A plan is a family but for the window and the labels of the options. -/
structure IsUnder (options : Options) (family plan : FamilyPlan) : Prop where
  window : plan.spec.window = options.window.getD family.spec.window
  labels : plan.spec.labels = (options.labels.map LabelSet.ofList).getD family.spec.labels
  rest : { plan with
      spec := { plan.spec with window := family.spec.window, labels := family.spec.labels } } =
    family

theorem isUnder_under (options : Options) (family : FamilyPlan) :
    IsUnder options family (family.under options) :=
  ⟨rfl, rfl, rfl⟩

theorem eq_of_checked {plan result : FamilyPlan} (passed : plan.checked = .ok result) :
    plan = result := by
  unfold FamilyPlan.checked at passed
  split at passed
  · cases passed
  · split at passed
    · cases passed
    · exact Except.ok.inj passed

/-- Options select plans exactly when families are known and chosen, at least one, and
each of them passes under the options. -/
theorem plans_eq_ok_iff {options : Options} {settings : Settings} {present : List String}
    {plans : List FamilyPlan} :
    options.plans settings present = .ok plans ↔
      ∃ known chosen, catalog settings = .ok known ∧
        chosenFamilies options.families present known = .ok chosen ∧ chosen ≠ [] ∧
        List.Forall₂ (fun family plan => (family.under options).checked = .ok plan)
          chosen plans := by
  simp only [Options.plans, bind_eq_ok_iff, ← mapM_eq_ok_iff, exists_and_left]
  refine exists_congr fun known => and_congr_right fun _ =>
    exists_congr fun chosen => and_congr_right fun _ => ?_
  cases chosen with
  | nil => simp [throw, throwThe, MonadExceptOf.throw, bind, Except.bind]
  | cons family families => simp

/-- What options select: a choice among the known families, under the options. -/
theorem exists_choice_of_plans {options : Options} {settings : Settings} {present : List String}
    {plans : List FamilyPlan} (selected : options.plans settings present = .ok plans) :
    ∃ known chosen, catalog settings = .ok known ∧
      IsChoice options.families present known chosen ∧
        plans = chosen.map (FamilyPlan.under options) := by
  obtain ⟨known, chosen, given, chose, -, checked⟩ := plans_eq_ok_iff.mp selected
  refine ⟨known, chosen, given, isChoice_of_chosenFamilies chose, ?_⟩
  have passed : List.Forall₂ (fun family plan => family.under options = plan) chosen plans :=
    checked.imp fun _ _ => eq_of_checked
  rw [← List.forall₂_map_left_iff, List.forall₂_eq_eq_eq] at passed
  exact passed.symm

/-- No two selected plans have the same name. -/
theorem nodup_planNames_of_plans {options : Options} {settings : Settings}
    {present : List String} {plans : List FamilyPlan}
    (selected : options.plans settings present = .ok plans) : (planNames plans).Nodup := by
  obtain ⟨known, chosen, given, choice, rfl⟩ := exists_choice_of_plans selected
  obtain ⟨common, tables, isCatalog⟩ := catalog_eq_ok_iff.mp given
  rw [planNames, List.map_map]
  exact choice.nodup isCatalog.nodup

/-- Where options select plans, the known families are the built-in ones, each replaced
by the table of its name, and the other tables; no two of them have the same name.  The
plans are the known families that are asked for, once each in the order of the first
request, or else those whose metric is in the input, each under the options. -/
theorem plans_select_known_families {options : Options} {settings : Settings}
    {present : List String} {plans : List FamilyPlan}
    (selected : options.plans settings present = .ok plans) :
    ∃ common tables known, catalog settings = .ok known ∧
      IsCatalog settings common tables known ∧
      settings.family.map FamilySettings.title? = (planNames tables).map some ∧
      (planNames known).Nodup ∧
      (options.families ≠ [] →
        List.Forall₂ (fun name plan =>
            ∃ family ∈ known, family.name = name ∧ IsUnder options family plan)
          options.families.eraseDups plans) ∧
      (options.families = [] →
        List.Forall₂ (IsUnder options)
          (known.filter fun family => decide (family.spec.metric ∈ present)) plans) := by
  obtain ⟨known, chosen, given, choice, rfl⟩ := exists_choice_of_plans selected
  obtain ⟨common, tables, isCatalog⟩ := catalog_eq_ok_iff.mp given
  refine ⟨common, tables, known, given, isCatalog, isCatalog.titles, isCatalog.nodup,
    fun asked => ?_, fun unasked => ?_⟩
  · refine List.forall₂_map_right_iff.mpr ((choice.asked asked).imp fun name family found => ?_)
    exact ⟨family, found.1, found.2, isUnder_under options family⟩
  · rw [← choice.unasked unasked, List.forall₂_map_right_iff, List.forall₂_same]
    exact fun family _ => isUnder_under options family

/-- A table that takes the name of a built-in family but starts from another one, and a
family that is asked for twice. -/
theorem plans_select_known_families_askedTwice :
    let options : Options := Line.defaults
      { families := ["disk", "cpu_self", "disk"]
        window := some ⟨3, by decide⟩
        labels := some ["sda"] }
    let settings : Settings :=
      { family :=
          [{ name := some "cpu_self", preset := some "network_rx" },
            { metric := some "disk", labels := some ["sdb"], kind := some .cumulative }] }
    ∃ known plans, options.plans settings [] = .ok plans ∧ catalog settings = .ok known ∧
      (planNames known).Nodup ∧
      List.Forall₂ (fun name plan =>
          ∃ family ∈ known, family.name = name ∧ IsUnder options family plan)
        ["disk", "cpu_self"] plans := by
  intro options settings
  have once : options.families.eraseDups = ["disk", "cpu_self"] := by decide +kernel
  have selects : (options.plans settings []).isOk := by decide +kernel
  cases selected : options.plans settings [] with
  | error cause => simp [selected, Except.isOk, Except.toBool] at selects
  | ok plans =>
      obtain ⟨-, -, known, given, -, -, distinct, asked, -⟩ := plans_select_known_families selected
      exact ⟨known, plans, rfl, given, distinct, once ▸ asked (by decide)⟩

end MetricRates
