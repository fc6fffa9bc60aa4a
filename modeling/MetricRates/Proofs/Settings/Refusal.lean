import MetricRates.Proofs.Settings.Layers

/-!
# Why no plans are selected

What can be wrong with the settings and the options is listed in the order in which it
counts: the window for all families, then the tables one after another, then the
families that are asked for, then whether there is anything to report, and last the
plans one after another.  Plans are selected exactly when nothing is wrong, and
otherwise the first fault of the list is the cause.
-/

namespace MetricRates

open Command Settings

/-! ## Tables -/

theorem Preset.find?_eq_none_iff {name : String} :
    Preset.find? name = none ↔ name ∉ presetNames := by
  simp [Preset.find?, presetNames]

theorem settingsWindow_eq_error_iff {field : String} {rows : Nat} {cause : SettingsError} :
    settingsWindow field rows = .error cause ↔ rows = 0 ∧ cause = .notPositive field := by
  unfold settingsWindow Window.ofNat?
  rcases Nat.eq_zero_or_pos rows with rfl | positive
  · simp [eq_comm]
  · simp [positive, Nat.pos_iff_ne_zero.mp positive]

namespace FamilySettings

variable {table : FamilySettings} {position : Nat} {common : Option Window}

/-- A table without preset leaves a field open. -/
def Lacks {α : Type} (table : FamilySettings) (field : String) (value : Option α)
    (cause : SettingsError) : Prop :=
  ∃ name, table.title? = some name ∧ table.preset = none ∧ value = none ∧
    cause = .missingField name field

/-- What can be wrong with a table by itself. -/
def ownFaults (table : FamilySettings) (position : Nat) : List (SettingsError → Prop) :=
  [ fun cause => table.title? = none ∧
      cause = .missingField ("#" ++ toString (position + 1)) "metric",
    fun cause => ∃ preset, table.preset = some preset ∧ preset ∉ presetNames ∧
      cause = .unknownFamily preset,
    table.Lacks "metric" table.metric,
    table.Lacks "labels" table.labels,
    table.Lacks "kind" table.kind,
    fun cause => ∃ name, table.title? = some name ∧ table.window = some 0 ∧
      cause = .notPositive ("family." ++ name ++ ".window") ]

/-- A table has the name of one that comes before it. -/
def Repeats (table : FamilySettings) (before : List FamilySettings) (cause : SettingsError) :
    Prop :=
  ∃ name, table.title? = some name ∧ some name ∈ before.map title? ∧
    cause = .duplicateFamily name

/-- What can be wrong with a table that comes after others. -/
def faults (table : FamilySettings) (position : Nat) (before : List FamilySettings) :
    List (SettingsError → Prop) :=
  table.ownFaults position ++ [table.Repeats before]

/-- A table has no base where its preset is unknown, or where it has none and leaves a
field open that it has to set. -/
theorem base_eq_error_iff {name : String} (named : table.title? = some name)
    (cause : SettingsError) :
    table.base name = .error cause ↔
      FirstFault
        [ fun cause => ∃ preset, table.preset = some preset ∧ preset ∉ presetNames ∧
            cause = .unknownFamily preset,
          table.Lacks "metric" table.metric,
          table.Lacks "labels" table.labels,
          table.Lacks "kind" table.kind ] cause := by
  unfold FamilySettings.base
  cases inherits : table.preset with
  | some preset =>
      cases found : Preset.find? preset with
      | none =>
          have unknown : preset ∉ presetNames := Preset.find?_eq_none_iff.mp found
          simp [FirstFault, Lacks, inherits, found, unknown, eq_comm]
      | some other =>
          have known : preset ∈ presetNames := by
            by_contra unknown
            rw [Preset.find?_eq_none_iff.mpr unknown] at found
            cases found
          simp [FirstFault, Lacks, inherits, found, known]
  | none =>
      cases table.metric <;> cases table.labels <;> cases table.kind <;>
        simp [FirstFault, Lacks, required, inherits, named, bind, Except.bind, pure,
          Except.pure, eq_comm]

theorem windowOver_eq_error_iff {name : String} (named : table.title? = some name)
    (base : Window) (cause : SettingsError) :
    table.windowOver name common base = .error cause ↔
      ∃ name, table.title? = some name ∧ table.window = some 0 ∧
        cause = .notPositive ("family." ++ name ++ ".window") := by
  unfold windowOver
  cases table.window with
  | none => simp
  | some rows => simp [named, settingsWindow_eq_error_iff]

/-- A table has no plan of its own exactly for the first of its own faults. -/
theorem plan_eq_error_iff (cause : SettingsError) :
    table.plan position common = .error cause ↔ FirstFault (table.ownFaults position) cause := by
  refine bind_eq_error_iff_firstFault [_] [_, _, _, _, _] ?_ ?_ cause
  · intro cause
    unfold nameAt
    cases table.title? <;> simp [FirstFault, eq_comm]
  · intro name found
    have named : table.title? = some name := nameAt_eq_ok_iff.mp found
    refine bind_eq_error_iff_firstFault [_, _, _, _] [_]
      (base_eq_error_iff named) ?_
    intro base _ cause
    rw [bind_eq_error_iff, windowOver_eq_error_iff named]
    simp [FirstFault, pure, Except.pure]

theorem repeats_iff {before : List FamilySettings} {earlier : List String}
    (names : before.map title? = earlier.map some) {name : String}
    (named : table.title? = some name) (cause : SettingsError) :
    table.Repeats before cause ↔ name ∈ earlier ∧ cause = .duplicateFamily name := by
  simp [Repeats, named, names]

/-- The first table is judged before the others. -/
theorem definedPlans_cons_eq_error_iff {before : List FamilySettings} {earlier : List String}
    (names : before.map title? = earlier.map some) {rest : List (FamilySettings × Nat)}
    {faults : List (SettingsError → Prop)}
    (after : ∀ plan, table.plan position common = .ok plan → ∀ cause,
      definedPlans common (earlier ++ [plan.name]) rest = .error cause ↔ FirstFault faults cause)
    (cause : SettingsError) :
    definedPlans common earlier ((table, position) :: rest) = .error cause ↔
      FirstFault (FirstFault (table.faults position before) :: faults) cause := by
  have joined : FirstFault (FirstFault (table.faults position before) :: faults) cause ↔
      FirstFault (table.ownFaults position ++ (table.Repeats before :: faults)) cause := by
    rw [FirstFault, ← firstFault_append, FamilySettings.faults, List.append_assoc]
    rfl
  rw [joined, definedPlans]
  refine bind_eq_error_iff_firstFault _ _ plan_eq_error_iff ?_ cause
  intro plan planned cause
  rw [FirstFault, ← after plan planned]
  simp only [repeats_iff names (title?_of_plan planned)]
  by_cases again : plan.name ∈ earlier
  · simp [again, throw, throwThe, MonadExceptOf.throw, bind, Except.bind, eq_comm]
  · cases definedPlans common (earlier ++ [plan.name]) rest <;>
      simp [again, bind, Except.bind, pure, Except.pure]

end FamilySettings

/-- What can be wrong with the tables of some settings. -/
def Settings.tableFaults (settings : Settings) : List (SettingsError → Prop) :=
  settings.family.zipIdx.map fun table =>
    FirstFault (table.1.faults table.2 (settings.family.take table.2))

/-- Tables have no plans exactly for the first fault of the first table that has any. -/
theorem definedPlans_eq_error_iff {common : Option Window} {before tables : List FamilySettings}
    {earlier : List String} (names : before.map FamilySettings.title? = earlier.map some)
    (cause : SettingsError) :
    definedPlans common earlier (tables.zipIdx before.length) = .error cause ↔
      FirstFault ((tables.zipIdx before.length).map fun table =>
        FirstFault (table.1.faults table.2 ((before ++ tables).take table.2))) cause := by
  induction tables generalizing before earlier cause with
  | nil => simp [definedPlans, FirstFault]
  | cons table tables ih =>
      rw [List.zipIdx_cons, List.map_cons, List.take_left]
      refine FamilySettings.definedPlans_cons_eq_error_iff names ?_ cause
      intro plan planned cause
      -- The table is now one of those that come before.
      have namesMore : (before ++ [table]).map FamilySettings.title? =
          (earlier ++ [plan.name]).map some := by
        simp [names, FamilySettings.title?_of_plan planned]
      simpa using ih namesMore cause

/-- What can be wrong with some settings by themselves. -/
def Settings.faults (settings : Settings) : List (SettingsError → Prop) :=
  [ fun cause => settings.window = some 0 ∧ cause = .notPositive "window",
    FirstFault settings.tableFaults ]

/-- There is no catalog exactly for the first fault of the settings. -/
theorem catalog_eq_error_iff {settings : Settings} (cause : SettingsError) :
    catalog settings = .error cause ↔ FirstFault settings.faults cause := by
  refine bind_eq_error_iff_firstFault [_] [_] ?_ ?_ cause
  · intro cause
    unfold commonWindow
    cases settings.window with
    | none => simp [FirstFault]
    | some rows => simp [FirstFault, map_eq_error_iff, settingsWindow_eq_error_iff]
  · intro common _ cause
    have tables := @definedPlans_eq_error_iff common [] settings.family [] rfl cause
    rw [bind_eq_error_iff]
    simpa [FirstFault, Settings.tableFaults, pure, Except.pure] using tables

/-! ## Families that are asked for -/

/-- A name is that of a built-in family or of a table. -/
def Settings.Knows (settings : Settings) (name : String) : Prop :=
  name ∈ presetNames ∨ ∃ table ∈ settings.family, table.title? = some name

theorem IsCatalog.mem_planNames_iff {settings : Settings} {common : Option Window}
    {tables known : List FamilyPlan} (isCatalog : IsCatalog settings common tables known)
    {name : String} : name ∈ planNames known ↔ settings.Knows name := by
  have ofTable : name ∈ planNames tables ↔ ∃ table ∈ settings.family, table.title? = some name := by
    rw [← List.mem_map, isCatalog.titles]
    simp
  rw [Settings.Knows, ← ofTable, isCatalog.planNames_known, List.mem_append]
  -- A table that takes the name of a built-in family adds no name.
  by_cases builtIn : name ∈ presetNames
  · simp [builtIn]
  · refine or_congr_right ⟨?_, ?_⟩
    · intro other
      exact (List.filter_sublist.map FamilyPlan.name).subset other
    · intro listed
      obtain ⟨table, member, rfl⟩ := List.mem_map.mp listed
      exact name_mem_planNames (List.mem_filter.mpr ⟨member, by simpa using builtIn⟩)

theorem familyNamed_eq_error_iff {known : List FamilyPlan} {name : String}
    (cause : SettingsError) :
    familyNamed known name = .error cause ↔
      name ∉ planNames known ∧ cause = .unknownFamily name := by
  unfold familyNamed
  cases found : known.find? fun plan => plan.name == name with
  | some plan =>
      have listed : name ∈ planNames known := by
        have named : plan.name = name := by simpa using List.find?_some found
        exact named ▸ name_mem_planNames (List.mem_of_find?_eq_some found)
      simp [listed]
  | none =>
      have unlisted : name ∉ planNames known := by
        intro listed
        obtain ⟨plan, member, named⟩ := List.mem_map.mp listed
        exact List.find?_eq_none.mp found plan member (beq_iff_eq.mpr named)
      simp [unlisted, eq_comm]

/-- Choosing fails exactly for the first name that is not known. -/
theorem chosenFamilies_eq_error_iff {requested present : List String} {known : List FamilyPlan}
    (cause : SettingsError) :
    chosenFamilies requested present known = .error cause ↔
      FirstFault (requested.map fun name cause =>
        name ∉ planNames known ∧ cause = .unknownFamily name) cause := by
  unfold chosenFamilies
  cases requested with
  | nil => simp [FirstFault]
  | cons name names =>
      rw [if_neg (by simp), mapM_eq_error_iff, firstFault_eraseDups]
      exact firstFault_map_congr (fun name _ => familyNamed_eq_error_iff) cause

/-- Choosing succeeds with the one choice that there is. -/
theorem chosenFamilies_eq_ok_iff {requested present : List String}
    {known chosen : List FamilyPlan} (distinct : (planNames known).Nodup) :
    chosenFamilies requested present known = .ok chosen ↔
      IsChoice requested present known chosen := by
  constructor
  · exact isChoice_of_chosenFamilies
  · intro choice
    unfold chosenFamilies
    by_cases unasked : requested = []
    · rw [if_pos (by simpa using unasked), choice.unasked unasked]
      exact congrArg Except.ok (List.filter_congr fun family _ => by simp [FamilyPlan.isPresent])
    · rw [if_neg (by simpa using unasked), mapM_eq_ok_iff]
      refine (choice.asked unasked).imp ?_
      rintro name family ⟨listed, rfl⟩
      rw [familyNamed, find?_key_eq_some distinct listed]

/-! ## Selected plans -/

/-- The known families that options select. -/
def Command.Options.Selects (options : Options) (settings : Settings) (present : List String)
    (chosen : List FamilyPlan) : Prop :=
  ∃ common tables known, IsCatalog settings common tables known ∧
    IsChoice options.families present known chosen

/-- What can be wrong with a family under options: it has no labels, which are those of the
options if these give any, or its scale is not finite or zero. -/
def FamilyPlan.faults (family : FamilyPlan) (options : Options) : List (SettingsError → Prop) :=
  [ fun cause => options.labels.getD family.spec.labels.members = [] ∧
      cause = .noLabels family.name,
    fun cause => (family.spec.unitScale.isFinite = false ∨
        (family.spec.unitScale == 0.0) = true) ∧
      cause = .invalidScale family.name family.spec.unitScale ]

/-- What can be wrong where options ask for families. -/
def Command.Options.faults (options : Options) (settings : Settings) (present : List String) :
    List (SettingsError → Prop) :=
  settings.faults ++
  [ FirstFault (options.families.map fun name cause =>
      ¬settings.Knows name ∧ cause = .unknownFamily name),
    fun cause => options.Selects settings present [] ∧ cause = .noFamilies,
    fun cause => ∃ chosen, options.Selects settings present chosen ∧
      FirstFault (chosen.map fun family => FirstFault (family.faults options)) cause ]

theorem members_ofList_eq_nil_iff {labels : List String} :
    (LabelSet.ofList labels).members = [] ↔ labels = [] := by
  simp only [List.eq_nil_iff_forall_not_mem]
  exact forall_congr' fun label => not_congr LabelSet.mem_ofList

/-- Under options a family has no labels where neither side gives it any. -/
theorem isEmpty_labels_under_iff {options : Options} {family : FamilyPlan} :
    (family.under options).spec.labels.isEmpty = true ↔
      options.labels.getD family.spec.labels.members = [] := by
  rw [LabelSet.isEmpty, List.isEmpty_iff, FamilyPlan.under]
  cases options.labels with
  | none => rfl
  | some labels => exact members_ofList_eq_nil_iff

theorem checked_under_eq_error_iff {options : Options} {family : FamilyPlan}
    (cause : SettingsError) :
    (family.under options).checked = .error cause ↔ FirstFault (family.faults options) cause := by
  have scale : (family.under options).spec.unitScale = family.spec.unitScale := rfl
  have name : (family.under options).name = family.name := rfl
  simp only [FamilyPlan.checked, FamilyPlan.faults, FirstFault, isEmpty_labels_under_iff,
    scale, name]
  by_cases unlabeled : options.labels.getD family.spec.labels.members = []
  · simp [unlabeled, eq_comm (a := cause)]
  · by_cases invalid : family.spec.unitScale.isFinite = false ∨
        (family.spec.unitScale == 0.0) = true
    · simp [unlabeled, invalid, eq_comm (a := cause)]
    · simp [unlabeled, invalid]

/-- A plan that passes has a label, and a finite scale that is not zero. -/
theorem sound_of_checked {plan result : FamilyPlan} (passed : plan.checked = .ok result) :
    result.spec.labels.members ≠ [] ∧ result.spec.unitScale.isFinite = true ∧
      (result.spec.unitScale == 0.0) = false := by
  obtain rfl := eq_of_checked passed
  unfold FamilyPlan.checked at passed
  split at passed
  · cases passed
  · rename_i labeled
    split at passed
    · cases passed
    · rename_i scaled
      exact ⟨fun unlabeled => labeled (List.isEmpty_iff.mpr unlabeled), by simpa using scaled⟩

theorem selects_iff {options : Options} {settings : Settings} {present : List String}
    {known : List FamilyPlan} (given : catalog settings = .ok known) {chosen : List FamilyPlan} :
    options.Selects settings present chosen ↔
      chosenFamilies options.families present known = .ok chosen := by
  constructor
  · rintro ⟨common, tables, others, isCatalog, choice⟩
    have same : known = others :=
      Except.ok.inj (given.symm.trans (catalog_eq_ok_iff.mpr ⟨common, tables, isCatalog⟩))
    rw [same, chosenFamilies_eq_ok_iff isCatalog.nodup]
    exact choice
  · intro chose
    obtain ⟨common, tables, isCatalog⟩ := catalog_eq_ok_iff.mp given
    exact ⟨common, tables, known, isCatalog, (chosenFamilies_eq_ok_iff isCatalog.nodup).mp chose⟩

/-- What comes of the families that are chosen. -/
theorem checkAll_eq_error_iff {options : Options} {chosen : List FamilyPlan}
    (cause : SettingsError) :
    (chosen.mapM fun plan => (plan.under options).checked) = .error cause ↔
      FirstFault (chosen.map fun family => FirstFault (family.faults options)) cause := by
  rw [mapM_eq_error_iff]
  exact firstFault_map_congr (fun family _ => checked_under_eq_error_iff) cause

/-- Options select no plans exactly for the first fault. -/
theorem plans_eq_error_iff {options : Options} {settings : Settings} {present : List String}
    (cause : SettingsError) :
    options.plans settings present = .error cause ↔
      FirstFault (options.faults settings present) cause := by
  refine bind_eq_error_iff_firstFault _ _ catalog_eq_error_iff ?_ cause
  intro known given
  refine bind_eq_error_iff_firstFault [_] [_, _] ?_ ?_
  · intro cause
    obtain ⟨common, tables, isCatalog⟩ := catalog_eq_ok_iff.mp given
    simp [FirstFault, chosenFamilies_eq_error_iff, isCatalog.mem_planNames_iff]
  · intro chosen chose cause
    -- The selection is this one, so it is empty exactly when this one is.
    have only (others : List FamilyPlan) :
        options.Selects settings present others ↔ others = chosen := by
      rw [selects_iff given, chose, Except.ok.injEq, eq_comm]
    simp only [FirstFault, only, exists_eq_left, ← checkAll_eq_error_iff]
    cases chosen with
    | nil => simp [throw, throwThe, MonadExceptOf.throw, bind, Except.bind, eq_comm (a := cause)]
    | cons family families => simp

/-- Options select no plans exactly when anything is wrong with the settings, with the
families that are asked for or with a selected plan, and the cause is the first fault in
this order.  Every plan that is selected has a label, a window of at least one row, and a
finite scale that is not zero. -/
theorem plans_refused_for_first_fault (options : Options) (settings : Settings)
    (present : List String) :
    ((∃ cause, options.plans settings present = .error cause) ↔
        ∃ fault ∈ options.faults settings present, ∃ cause, fault cause) ∧
      (∀ cause, options.plans settings present = .error cause ↔
        FirstFault (options.faults settings present) cause) ∧
      ∀ plans, options.plans settings present = .ok plans → ∀ plan ∈ plans,
        plan.spec.labels.members ≠ [] ∧ 1 ≤ plan.spec.window.rows ∧
          plan.spec.unitScale.isFinite = true ∧ (plan.spec.unitScale == 0.0) = false := by
  refine ⟨?_, plans_eq_error_iff, ?_⟩
  · rw [← exists_firstFault_iff]
    exact exists_congr plans_eq_error_iff
  · intro plans selected plan listed
    obtain ⟨known, chosen, -, -, -, checked⟩ := plans_eq_ok_iff.mp selected
    obtain ⟨family, -, passed⟩ := exists_left_of_forall₂ checked listed
    obtain ⟨labeled, scaled⟩ := sound_of_checked passed
    exact ⟨labeled, plan.spec.window.positive, scaled⟩

/-- A table without rows in its window counts before a family that is asked for but not
known. -/
example :
    (Line.defaults { families := ["disk"] }).plans
        { family := [{ preset := some "cpu_self", window := some 0 }] } [] =
      .error (.notPositive "family.cpu_self.window") := by
  decide +kernel

end MetricRates
