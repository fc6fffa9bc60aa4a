import MetricRates.Proofs.Settings.Selection

/-!
# Which layer decides

The window of a plan is that of the options, or else of the table of its name, or else
of the settings, or else the default; its labels are those of the options, or else of
the table, or else of the preset.  The arguments of a run are those that are given, or
else those of the settings, or else what they were.
-/

namespace MetricRates

open Command Settings

/-! ## Finding by a key -/

/-- Where no key comes twice, an element is the one that is found by its key. -/
theorem find?_key_eq_some {α κ : Type} [BEq κ] [LawfulBEq κ] {key : α → κ}
    {list : List α}
    (distinct : (list.map key).Nodup) {a : α} (listed : a ∈ list) :
    (list.find? fun b => key b == key a) = some a := by
  induction list with
  | nil => exact absurd listed List.not_mem_nil
  | cons b list ih =>
      obtain ⟨apart, distinct⟩ := List.nodup_cons.mp distinct
      rcases List.mem_cons.mp listed with rfl | later
      · simp
      · have differ : key b ≠ key a := fun same => apart (same ▸ List.mem_map_of_mem later)
        rw [List.find?_cons_of_neg (by simpa using differ), ih distinct later]

theorem Preset.find?_name {preset : Preset} (listed : preset ∈ presets) :
    Preset.find? preset.name = some preset :=
  find?_key_eq_some nodup_presetNames listed

/-! ## The settings of a name -/

namespace Settings

/-- The table of a name. -/
def tableNamed? (settings : Settings) (name : String) : Option FamilySettings :=
  settings.family.find? fun table => table.title? == some name

/-- The preset of a name: that of the table of the name, or the built-in family of the
name where there is no such table. -/
def presetOf? (settings : Settings) (name : String) : Option Preset :=
  match settings.tableNamed? name with
  | some table => table.preset.bind Preset.find?
  | none => Preset.find? name

/-- The rows of the window for a name: those of its table, or else of the settings, or
else ten. -/
def windowRows (settings : Settings) (name : String) : Nat :=
  (((settings.tableNamed? name).bind FamilySettings.window).or settings.window).getD 10

/-- The labels for a name: those of its table, or else of its preset. -/
def labelsOf? (settings : Settings) (name : String) : Option (List String) :=
  ((settings.tableNamed? name).bind FamilySettings.labels).or
    ((settings.presetOf? name).map Preset.labels)

end Settings

/-- What the settings say of the window and the labels of a family. -/
structure Layered (settings : Settings) (family : FamilyPlan) : Prop where
  table : ∀ table ∈ settings.family, table.title? = some family.name →
    settings.tableNamed? family.name = some table
  window : family.spec.window.rows = settings.windowRows family.name
  labels : (settings.labelsOf? family.name).map LabelSet.ofList = some family.spec.labels

/-! ## Families of tables -/

namespace FamilySettings

variable {table : FamilySettings} {common : Option Window}

theorem windowOver_eq_ok_iff {name : String} {base window : Window} :
    table.windowOver name common base = .ok window ↔
      window.rows = (table.window.or (common.map Window.rows)).getD base.rows := by
  unfold windowOver
  cases table.window with
  | some rows => exact settingsWindow_eq_ok_iff
  | none =>
      have sameRows (other : Window) : other = window ↔ window.rows = other.rows := by
        rw [Window.mk.injEq, eq_comm]
      cases common <;> simp [sameRows]

theorem required_eq_ok_iff {α : Type} {name field : String} {given : Option α} {value : α} :
    required name field given = .ok value ↔ given = some value := by
  cases given <;> simp [required]

/-- A base has the default window; its labels are those of the preset, if there is one,
and else the table has labels of its own. -/
theorem base_parts {name : String} {base : FamilyPlan} (based : table.base name = .ok base) :
    base.spec.window = .default ∧
      (table.labels.or ((table.preset.bind Preset.find?).map Preset.labels)).map LabelSet.ofList =
        some ((table.labels.map LabelSet.ofList).getD base.spec.labels) := by
  unfold FamilySettings.base at based
  cases inherits : table.preset with
  | some name =>
      cases found : Preset.find? name with
      | none => simp [inherits, found] at based
      | some preset =>
          simp only [inherits, found, Except.ok.injEq] at based
          subst based
          refine ⟨rfl, ?_⟩
          cases table.labels <;> simp [found, Preset.plan, FamilySpec.new]
  | none =>
      simp only [inherits, bind_eq_ok_iff, required_eq_ok_iff, pure, Except.pure,
        Except.ok.injEq] at based
      obtain ⟨metric, -, labels, own, kind, -, rfl⟩ := based
      exact ⟨rfl, by simp [own]⟩

/-- The plan of a table has the window of the table, or else the common one, or else the
default. -/
theorem plan_parts {position : Nat} {plan : FamilyPlan}
    (planned : table.plan position common = .ok plan) :
    plan.spec.window.rows = (table.window.or (common.map Window.rows)).getD 10 ∧
      (table.labels.or ((table.preset.bind Preset.find?).map Preset.labels)).map LabelSet.ofList =
        some plan.spec.labels := by
  obtain ⟨name, base, window, -, based, windowed, rfl⟩ := plan_eq_ok_iff.mp planned
  have rows := windowOver_eq_ok_iff.mp windowed
  rw [(base_parts based).1] at rows
  exact ⟨rows, (base_parts based).2⟩

end FamilySettings

/-! ## Known families -/

section Catalog

variable {settings : Settings} {common : Option Window} {tables known : List FamilyPlan}

/-- A table is found by its name. -/
theorem IsCatalog.tableNamed?_eq_some (isCatalog : IsCatalog settings common tables known)
    {table : FamilySettings} (listed : table ∈ settings.family) {name : String}
    (named : table.title? = some name) : settings.tableNamed? name = some table := by
  have distinct : (settings.family.map FamilySettings.title?).Nodup := by
    rw [isCatalog.titles]
    exact isCatalog.distinct.map fun _ _ => Option.some.inj
  simpa only [tableNamed?, named] using find?_key_eq_some distinct listed

theorem IsCatalog.tableNamed?_eq_none (isCatalog : IsCatalog settings common tables known)
    {name : String} (absent : name ∉ planNames tables) : settings.tableNamed? name = none := by
  refine List.find?_eq_none.mpr fun table listed same => absent ?_
  have titled : some name ∈ settings.family.map FamilySettings.title? :=
    List.mem_map.mpr ⟨table, listed, by simpa using same⟩
  rw [isCatalog.titles] at titled
  simpa using titled

/-- A known family is that of a table, or a built-in one whose name no table has. -/
theorem IsCatalog.mem_cases (isCatalog : IsCatalog settings common tables known)
    {family : FamilyPlan} (listed : family ∈ known) :
    family ∈ tables ∨
      ∃ preset ∈ presets, preset.name ∉ planNames tables ∧ family = preset.planWith common := by
  rw [isCatalog.known] at listed
  rcases List.mem_append.mp listed with first | last
  · obtain ⟨preset, builtIn, rfl⟩ := List.mem_map.mp first
    unfold FamilyPlan.replacedBy
    cases found : tables.find? fun other => other.name == (preset.planWith common).name with
    | some table => exact .inl (List.mem_of_find?_eq_some found)
    | none =>
        refine .inr ⟨preset, builtIn, fun same => ?_, rfl⟩
        obtain ⟨table, member, named⟩ := List.mem_map.mp same
        exact List.find?_eq_none.mp found table member (beq_iff_eq.mpr named)
  · exact .inl (List.mem_filter.mp last).1

/-- Every known family is what the settings say. -/
theorem IsCatalog.layered (isCatalog : IsCatalog settings common tables known)
    {family : FamilyPlan} (listed : family ∈ known) : Layered settings family := by
  have sole (table : FamilySettings) (member : table ∈ settings.family)
      (named : table.title? = some family.name) : settings.tableNamed? family.name = some table :=
    isCatalog.tableNamed?_eq_some member named
  -- A table has laid its settings over the base already; a built-in family that is left
  -- has no table, so only the common window can have changed it.
  rcases isCatalog.mem_cases listed with ofTable | ⟨preset, builtIn, absent, rfl⟩
  · obtain ⟨⟨table, position⟩, member, planned⟩ := exists_left_of_forall₂ isCatalog.planned ofTable
    have found : settings.tableNamed? family.name = some table :=
      sole table (List.fst_mem_of_mem_zipIdx member) (FamilySettings.title?_of_plan planned)
    obtain ⟨rows, labels⟩ := FamilySettings.plan_parts planned
    refine ⟨sole, ?_, ?_⟩
    · simpa [windowRows, found, ← isCatalog.window] using rows
    · simpa [labelsOf?, presetOf?, found] using labels
  · have unfound : settings.tableNamed? preset.name = none := isCatalog.tableNamed?_eq_none absent
    refine ⟨sole, ?_, ?_⟩
    · change _ = settings.windowRows preset.name
      rw [windowRows, unfound, ← isCatalog.window]
      cases common <;> rfl
    · change (settings.labelsOf? preset.name).map _ = _
      rw [labelsOf?, presetOf?, unfound, Preset.find?_name builtIn]
      rfl

end Catalog

/-! ## Options under settings -/

/-- A value that is given stays, one that is not is the value of the setting, and one
that is neither given nor set stays. -/
structure Decided {α : Type} (given : Bool) (before : α) (setting : Option α) (after : α) :
    Prop where
  kept : given = true → after = before
  set : given = false → ∀ value, setting = some value → after = value
  unset : given = false → setting = none → after = before

theorem decided_valueUnder {α : Type} (given : Bool) (value : α) (setting : Option α) :
    Decided given value setting (valueUnder given value setting) := by
  cases given <;> cases setting <;> constructor <;> simp [valueUnder]

/-- What options become under settings. -/
structure OptionsLayered (given : Setting → Bool) (settings : Settings) (before after : Options) :
    Prop where
  families : Decided (given .families) before.families settings.families after.families
  chartsPath : Decided (given .chartsPath) before.chartsPath settings.chartsPath after.chartsPath
  noCharts : Decided (given .noCharts) before.noCharts settings.noCharts after.noCharts
  exportCsv : Decided (given .exportCsv) before.exportCsv (settings.exportCsv.map some)
    after.exportCsv
  exportJson : Decided (given .exportJson) before.exportJson (settings.exportJson.map some)
    after.exportJson
  rest : { after with
      families := before.families
      chartsPath := before.chartsPath
      noCharts := before.noCharts
      exportCsv := before.exportCsv
      exportJson := before.exportJson } = before

theorem optionsLayered_under (options : Options) (given : Setting → Bool) (settings : Settings) :
    OptionsLayered given settings options (options.under given settings) where
  families := decided_valueUnder _ _ _
  chartsPath := decided_valueUnder _ _ _
  noCharts := decided_valueUnder _ _ _
  exportCsv := decided_valueUnder _ _ _
  exportJson := decided_valueUnder _ _ _
  rest := rfl

/-- Where options under settings select plans, the window of each plan is that of the
options, or else of the table of its name, or else of the settings, or else ten; its
labels are those of the options, or else of its table, or else of its preset. -/
theorem plans_layer_settings {options : Options} {given : Setting → Bool} {settings : Settings}
    {present : List String} {plans : List FamilyPlan}
    (selected : (options.under given settings).plans settings present = .ok plans) :
    OptionsLayered given settings options (options.under given settings) ∧
      ∀ plan ∈ plans,
        (∀ table ∈ settings.family, table.title? = some plan.name →
          settings.tableNamed? plan.name = some table) ∧
        plan.spec.window.rows =
          (options.window.map Window.rows).getD (settings.windowRows plan.name) ∧
        (options.labels.or (settings.labelsOf? plan.name)).map LabelSet.ofList =
          some plan.spec.labels := by
  refine ⟨optionsLayered_under options given settings, fun plan listed => ?_⟩
  obtain ⟨known, chosen, cataloged, choice, rfl⟩ := exists_choice_of_plans selected
  obtain ⟨common, tables, isCatalog⟩ := catalog_eq_ok_iff.mp cataloged
  obtain ⟨family, member, rfl⟩ := List.mem_map.mp listed
  have layered : Layered settings family := isCatalog.layered (choice.mem_known member)
  refine ⟨layered.table, ?_, ?_⟩
  · have rows := layered.window
    change (options.window.getD family.spec.window).rows = _
    cases options.window with
    | some window => rfl
    | none => exact rows
  · have labels := layered.labels
    change _ = some ((options.labels.map LabelSet.ofList).getD family.spec.labels)
    cases options.labels with
    | some given => rfl
    | none => exact labels

/-- One table has a window of its own, the other takes that of the settings, and the
path that is given wins over the one that is set. -/
theorem plans_layer_settings_ownWindow :
    let line : Line :=
      { families := ["cpu_self", "mem_all"], exportCsv := some "given.csv" }
    let settings : Settings :=
      { window := some 5
        exportCsv := some "set.csv"
        families := some ["cpu_all"]
        family :=
          [{ preset := some "cpu_self", window := some 7 },
            { name := some "mem_all", preset := some "network_rx", labels := some ["eth1"] }] }
    ∃ plans, selectedFamilies line settings [] = .ok plans ∧
      (line.options settings).exportCsv = some "given.csv" ∧
      planNames plans = ["cpu_self", "mem_all"] ∧
      plans.map (fun plan => plan.spec.window.rows) = [7, 5] := by
  intro line settings
  have named : (selectedFamilies line settings []).toOption.map planNames =
      some ["cpu_self", "mem_all"] := by decide +kernel
  obtain ⟨plans, selects, names⟩ := Option.map_eq_some_iff.mp named
  have selected : (line.defaults.under line.gives settings).plans settings [] = .ok plans :=
    toOption_eq_some_iff.mp selects
  obtain ⟨options, layered⟩ := plans_layer_settings selected
  refine ⟨plans, selected, options.exportCsv.kept rfl, names, ?_⟩
  calc
    plans.map (fun plan => plan.spec.window.rows) =
        plans.map (fun plan => settings.windowRows plan.name) :=
      List.map_congr_left fun plan listed => (layered plan listed).2.1
    _ = (planNames plans).map settings.windowRows := by rw [planNames, List.map_map]; rfl
    _ = [7, 5] := by rw [names]; decide +kernel

end MetricRates
