import Mathlib.Data.List.Nodup
import MetricRates.Proofs.Results
import MetricRates.Settings.Catalog

/-!
# What the catalog holds

Every table of the settings gives a plan of its own name.  The catalog holds the
built-in families in their order, each replaced by the plan of the table of its name
if there is one, and then the plans of the other tables in their order.  No two known
families have the same name.
-/

namespace MetricRates

open Settings

/-! ## The plan of a table -/

namespace FamilySettings

variable {table : FamilySettings} {position : Nat} {common : Option Window} {plan : FamilyPlan}

theorem nameAt_eq_ok_iff {name : String} :
    table.nameAt position = .ok name ↔ table.title? = some name := by
  unfold nameAt
  cases table.title? <;> simp

/-- A table has a plan exactly when it has a name, a base and a window. -/
theorem plan_eq_ok_iff :
    table.plan position common = .ok plan ↔
      ∃ name base window, table.title? = some name ∧ table.base name = .ok base ∧
        table.windowOver name common base.spec.window = .ok window ∧
        table.planOver name window base = plan := by
  simp only [FamilySettings.plan, bind_eq_ok_iff, nameAt_eq_ok_iff, pure, Except.pure,
    Except.ok.injEq]
  constructor
  · rintro ⟨name, named, base, based, window, windowed, rfl⟩
    exact ⟨name, base, window, named, based, windowed, rfl⟩
  · rintro ⟨name, base, window, named, based, windowed, rfl⟩
    exact ⟨name, named, base, based, window, windowed, rfl⟩

/-- The plan of a table has the name of the table. -/
theorem title?_of_plan (planned : table.plan position common = .ok plan) :
    table.title? = some plan.name := by
  obtain ⟨name, base, window, named, -, -, rfl⟩ := plan_eq_ok_iff.mp planned
  exact named

end FamilySettings

/-! ## The plans of all tables -/

/-- The names of some plans. -/
def planNames (plans : List FamilyPlan) : List String :=
  plans.map FamilyPlan.name

@[simp]
theorem planNames_cons (plan : FamilyPlan) (plans : List FamilyPlan) :
    planNames (plan :: plans) = plan.name :: planNames plans := rfl

@[simp]
theorem planNames_append (first second : List FamilyPlan) :
    planNames (first ++ second) = planNames first ++ planNames second :=
  List.map_append

theorem name_mem_planNames {plan : FamilyPlan} {plans : List FamilyPlan} (listed : plan ∈ plans) :
    plan.name ∈ planNames plans :=
  List.mem_map_of_mem listed

/-- The plans of tables, in order. -/
def PlannedTables (common : Option Window) (tables : List (FamilySettings × Nat))
    (plans : List FamilyPlan) : Prop :=
  List.Forall₂ (fun table plan => table.1.plan table.2 common = .ok plan) tables plans

/-- The plans of tables have the names of the tables. -/
theorem PlannedTables.titles {common : Option Window} {tables : List (FamilySettings × Nat)}
    {plans : List FamilyPlan} (planned : PlannedTables common tables plans) :
    (tables.map fun table => table.1.title?) = (planNames plans).map some := by
  induction planned with
  | nil => rfl
  | cons first rest ih =>
      rw [List.map_cons, planNames_cons, List.map_cons, ih, FamilySettings.title?_of_plan first]

/-- The first table comes before the others, which must not have its name. -/
theorem definedPlans_cons_eq_ok_iff {common : Option Window} {earlier : List String}
    {table : FamilySettings × Nat} {tables : List (FamilySettings × Nat)}
    {plans : List FamilyPlan} :
    definedPlans common earlier (table :: tables) = .ok plans ↔
      ∃ plan rest, table.1.plan table.2 common = .ok plan ∧ plan.name ∉ earlier ∧
        definedPlans common (earlier ++ [plan.name]) tables = .ok rest ∧ plans = plan :: rest := by
  rw [definedPlans, bind_eq_ok_iff]
  refine exists_congr fun plan => ?_
  by_cases again : plan.name ∈ earlier
  · simp [again, throw, throwThe, MonadExceptOf.throw, bind, Except.bind]
  · cases definedPlans common (earlier ++ [plan.name]) tables with
    | error cause => simp [again, bind, Except.bind]
    | ok rest => simp [again, bind, Except.bind, pure, Except.pure, eq_comm]

/-- Tables have plans exactly when each has one and no name comes twice. -/
theorem definedPlans_eq_ok_iff {common : Option Window} {earlier : List String}
    {tables : List (FamilySettings × Nat)} {plans : List FamilyPlan} :
    definedPlans common earlier tables = .ok plans ↔
      PlannedTables common tables plans ∧ (planNames plans).Nodup ∧
        ∀ plan ∈ plans, plan.name ∉ earlier := by
  induction tables generalizing earlier plans with
  | nil =>
      simp only [definedPlans, Except.ok.injEq, PlannedTables, List.forall₂_nil_left_iff]
      constructor
      · rintro rfl
        simp [planNames]
      · exact fun planned => planned.1.symm
  | cons table tables ih =>
      simp only [definedPlans_cons_eq_ok_iff, ih, PlannedTables, List.forall₂_cons_left_iff]
      constructor
      · rintro ⟨plan, rest, planned, fresh, ⟨plannedRest, distinct, later⟩, rfl⟩
        have apart : plan.name ∉ planNames rest := by
          intro same
          obtain ⟨other, listed, named⟩ := List.mem_map.mp same
          exact later other listed (by simp [named])
        refine ⟨⟨plan, rest, planned, plannedRest, rfl⟩, List.nodup_cons.mpr ⟨apart, distinct⟩, ?_⟩
        refine List.forall_mem_cons.mpr ⟨fresh, fun other listed early => ?_⟩
        exact later other listed (List.mem_append_left _ early)
      · rintro ⟨⟨plan, rest, planned, plannedRest, rfl⟩, distinct, fresh⟩
        obtain ⟨apart, distinct⟩ := List.nodup_cons.mp distinct
        obtain ⟨fresh, later⟩ := List.forall_mem_cons.mp fresh
        refine ⟨plan, rest, planned, fresh, ⟨plannedRest, distinct, ?_⟩, rfl⟩
        intro other listed early
        rcases List.mem_append.mp early with early | same
        · exact later other listed early
        · exact apart (List.mem_singleton.mp same ▸ name_mem_planNames listed)

/-! ## Replacing by name -/

/-- A plan, or the first of some plans that has its name. -/
def FamilyPlan.replacedBy (plans : List FamilyPlan) (plan : FamilyPlan) : FamilyPlan :=
  (plans.find? fun other => other.name == plan.name).getD plan

theorem FamilyPlan.replacedBy_cons_of_eq {plan other : FamilyPlan} (same : other.name = plan.name)
    (plans : List FamilyPlan) : plan.replacedBy (other :: plans) = other := by
  simp [replacedBy, same]

theorem FamilyPlan.replacedBy_cons_of_ne {plan other : FamilyPlan} (differ : other.name ≠ plan.name)
    (plans : List FamilyPlan) : plan.replacedBy (other :: plans) = plan.replacedBy plans := by
  simp [replacedBy, differ]

theorem FamilyPlan.replacedBy_of_not_mem {plan : FamilyPlan} {plans : List FamilyPlan}
    (absent : plan.name ∉ planNames plans) : plan.replacedBy plans = plan := by
  have unfound : (plans.find? fun other => other.name == plan.name) = none := by
    refine List.find?_eq_none.mpr fun other listed same => absent ?_
    exact beq_iff_eq.mp same ▸ name_mem_planNames listed
  rw [replacedBy, unfound, Option.getD_none]

@[simp]
theorem FamilyPlan.name_replacedBy (plan : FamilyPlan) (plans : List FamilyPlan) :
    (plan.replacedBy plans).name = plan.name := by
  unfold replacedBy
  cases found : plans.find? fun other => other.name == plan.name with
  | none => rfl
  | some other => simpa using List.find?_some found

@[simp]
theorem planNames_map_replacedBy (plans others : List FamilyPlan) :
    planNames (plans.map (FamilyPlan.replacedBy others)) = planNames plans := by
  simp [planNames, Function.comp_def]

theorem map_replacedBy_of_disjoint {plans others : List FamilyPlan}
    (disjoint : ∀ plan ∈ plans, plan.name ∉ planNames others) :
    plans.map (FamilyPlan.replacedBy others) = plans :=
  calc
    plans.map (FamilyPlan.replacedBy others) = plans.map id :=
      List.map_congr_left fun plan listed =>
        FamilyPlan.replacedBy_of_not_mem (disjoint plan listed)
    _ = plans := List.map_id plans

/-- A plan of a known name takes the place of the one that has it. -/
theorem replaceOrAppend_of_mem {plan : FamilyPlan} {plans : List FamilyPlan}
    (distinct : (planNames plans).Nodup) (present : plan.name ∈ planNames plans) :
    replaceOrAppend plan plans = plans.map (FamilyPlan.replacedBy [plan]) := by
  induction plans with
  | nil => exact absurd present List.not_mem_nil
  | cons other plans ih =>
      obtain ⟨apart, distinct⟩ := List.nodup_cons.mp distinct
      by_cases same : other.name = plan.name
      · have kept : plans.map (FamilyPlan.replacedBy [plan]) = plans := by
          refine map_replacedBy_of_disjoint fun next listed shared => apart ?_
          rw [same, ← List.mem_singleton.mp shared]
          exact name_mem_planNames listed
        rw [replaceOrAppend, if_pos same, List.map_cons, kept,
          FamilyPlan.replacedBy_cons_of_eq same.symm]
      · have later : plan.name ∈ planNames plans :=
          (List.mem_cons.mp present).resolve_left (Ne.symm same)
        rw [replaceOrAppend, if_neg same, List.map_cons, ih distinct later,
          FamilyPlan.replacedBy_of_not_mem (by simpa [planNames] using same)]

/-- A plan of a new name comes last. -/
theorem replaceOrAppend_of_not_mem {plan : FamilyPlan} {plans : List FamilyPlan}
    (absent : plan.name ∉ planNames plans) : replaceOrAppend plan plans = plans ++ [plan] := by
  induction plans with
  | nil => rfl
  | cons other plans ih =>
      obtain ⟨differ, absent⟩ := List.ne_and_not_mem_of_not_mem_cons absent
      rw [replaceOrAppend, if_neg differ.symm, ih absent, List.cons_append]

/-- Plans of different names, each put in the place of its name or else at the end. -/
theorem foldl_replaceOrAppend {tables plans : List FamilyPlan}
    (distinctTables : (planNames tables).Nodup) (distinct : (planNames plans).Nodup) :
    tables.foldl (fun plans plan => replaceOrAppend plan plans) plans =
      plans.map (FamilyPlan.replacedBy tables) ++
        tables.filter fun table => decide (table.name ∉ planNames plans) := by
  induction tables generalizing plans with
  | nil => simp [map_replacedBy_of_disjoint, planNames]
  | cons table tables ih =>
      obtain ⟨apart, distinctTables⟩ := List.nodup_cons.mp distinctTables
      -- The first table takes a place or comes last, and the names stay distinct.
      by_cases present : table.name ∈ planNames plans
      · have twice (plan : FamilyPlan) :
            (plan.replacedBy [table]).replacedBy tables = plan.replacedBy (table :: tables) := by
          by_cases same : table.name = plan.name
          · rw [FamilyPlan.replacedBy_cons_of_eq same, FamilyPlan.replacedBy_cons_of_eq same,
              FamilyPlan.replacedBy_of_not_mem apart]
          · rw [FamilyPlan.replacedBy_cons_of_ne same, FamilyPlan.replacedBy_cons_of_ne same]
            rfl
        rw [List.foldl_cons, replaceOrAppend_of_mem distinct present,
          ih distinctTables (by simpa using distinct), List.map_map,
          List.filter_cons_of_neg (by simpa using present), planNames_map_replacedBy]
        simp only [Function.comp_def, twice]
      · have distinctMore : (planNames (plans ++ [table])).Nodup := by
          rw [planNames_append]
          exact distinct.append (List.nodup_singleton _) (by simpa [planNames] using present)
        have once : plans.map (FamilyPlan.replacedBy (table :: tables)) =
            plans.map (FamilyPlan.replacedBy tables) := by
          refine List.map_congr_left fun plan listed => FamilyPlan.replacedBy_cons_of_ne ?_ tables
          exact fun same => present (same ▸ name_mem_planNames listed)
        have others :
            (tables.filter fun other => decide (other.name ∉ planNames (plans ++ [table]))) =
              tables.filter fun other => decide (other.name ∉ planNames plans) := by
          refine List.filter_congr fun other listed => ?_
          have differ : other.name ≠ table.name := fun same =>
            apart (same ▸ name_mem_planNames listed)
          simp [planNames, differ]
        rw [List.foldl_cons, replaceOrAppend_of_not_mem present, ih distinctTables distinctMore,
          List.map_append, List.filter_cons_of_pos (by simpa using present), others, once,
          List.append_assoc]
        simp [FamilyPlan.replacedBy_of_not_mem apart]

/-! ## The known families -/

/-- The names of the built-in families. -/
def presetNames : List String :=
  presets.map Preset.name

theorem nodup_presetNames : presetNames.Nodup := by
  decide

/-- What is known under some settings: `common` is their window for all families,
and `tables` are the plans of their tables, which have different names.  Every
built-in family is known, replaced by the table of its name if there is one, and
after them the tables with other names. -/
structure IsCatalog (settings : Settings) (common : Option Window)
    (tables known : List FamilyPlan) : Prop where
  window : common.map Window.rows = settings.window
  planned : PlannedTables common settings.family.zipIdx tables
  distinct : (planNames tables).Nodup
  known : known =
    (presets.map fun preset => (preset.planWith common).replacedBy tables) ++
      tables.filter fun table => decide (table.name ∉ presetNames)

theorem settingsWindow_eq_ok_iff {field : String} {rows : Nat} {window : Window} :
    settingsWindow field rows = .ok window ↔ window.rows = rows := by
  unfold settingsWindow Window.ofNat?
  by_cases positive : 0 < rows
  · simp only [positive, dif_pos, Except.ok.injEq]
    exact ⟨fun same => same ▸ rfl, fun same => by cases window; cases same; rfl⟩
  · simp only [positive, dif_neg, reduceCtorEq, not_false_eq_true, false_iff]
    exact fun same => positive (same ▸ window.positive)

theorem commonWindow_eq_ok_iff {settings : Settings} {common : Option Window} :
    commonWindow settings = .ok common ↔ common.map Window.rows = settings.window := by
  unfold commonWindow
  cases settings.window with
  | none => cases common <;> simp
  | some rows =>
      constructor
      · intro read
        cases given : settingsWindow "window" rows with
        | error cause => simp [given, Except.map] at read
        | ok window =>
            simp only [given, Except.map, Except.ok.injEq] at read
            rw [← read, Option.map_some, settingsWindow_eq_ok_iff.mp given]
      · intro same
        obtain ⟨window, rfl, counted⟩ := Option.map_eq_some_iff.mp same
        simp only [settingsWindow_eq_ok_iff.mpr counted, Except.map]

theorem planNames_presets (common : Option Window) :
    planNames (presets.map fun preset => preset.planWith common) = presetNames := by
  rw [planNames, List.map_map]
  rfl

/-- There is a catalog exactly when the window and the tables of the settings can be
read and no name comes twice. -/
theorem catalog_eq_ok_iff {settings : Settings} {known : List FamilyPlan} :
    catalog settings = .ok known ↔ ∃ common tables, IsCatalog settings common tables known := by
  have folded {common : Option Window} {tables : List FamilyPlan}
      (distinct : (planNames tables).Nodup) :=
    foldl_replaceOrAppend distinct ((planNames_presets common).symm ▸ nodup_presetNames)
  simp only [planNames_presets, List.map_map] at folded
  simp only [catalog, bind_eq_ok_iff, commonWindow_eq_ok_iff, definedPlans_eq_ok_iff, pure,
    Except.pure, Except.ok.injEq]
  constructor
  · rintro ⟨common, window, tables, ⟨planned, distinct, -⟩, rfl⟩
    exact ⟨common, tables, window, planned, distinct, folded distinct⟩
  · rintro ⟨common, tables, window, planned, distinct, rfl⟩
    exact ⟨common, window, tables, ⟨planned, distinct, by simp⟩, folded distinct⟩

/-- The plans of the tables have the names of the tables, in order. -/
theorem IsCatalog.titles {settings : Settings} {common : Option Window}
    {tables known : List FamilyPlan} (isCatalog : IsCatalog settings common tables known) :
    settings.family.map FamilySettings.title? = (planNames tables).map some :=
  calc
    settings.family.map FamilySettings.title? =
        (settings.family.zipIdx.map Prod.fst).map FamilySettings.title? := by
      rw [List.zipIdx_map_fst]
    _ = settings.family.zipIdx.map fun table => table.1.title? := List.map_map
    _ = (planNames tables).map some := isCatalog.planned.titles

/-- The names of the built-in families come first, and then those of the tables that
have other names. -/
theorem IsCatalog.planNames_known {settings : Settings} {common : Option Window}
    {tables known : List FamilyPlan} (isCatalog : IsCatalog settings common tables known) :
    planNames known =
      presetNames ++ planNames (tables.filter fun table => decide (table.name ∉ presetNames)) := by
  have presetsFirst : planNames (presets.map fun preset =>
      (preset.planWith common).replacedBy tables) = presetNames := by
    simpa [List.map_map, Function.comp_def] using
      (planNames_map_replacedBy _ tables).trans (planNames_presets common)
  rw [isCatalog.known, planNames_append, presetsFirst]

/-- No two known families have the same name. -/
theorem IsCatalog.nodup {settings : Settings} {common : Option Window}
    {tables known : List FamilyPlan} (isCatalog : IsCatalog settings common tables known) :
    (planNames known).Nodup := by
  rw [isCatalog.planNames_known]
  refine nodup_presetNames.append (isCatalog.distinct.sublist (List.filter_sublist.map _)) ?_
  intro name builtIn other
  obtain ⟨table, listed, rfl⟩ := List.mem_map.mp other
  exact of_decide_eq_true (List.mem_filter.mp listed).2 builtIn

end MetricRates
