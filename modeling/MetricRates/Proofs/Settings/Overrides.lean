import MetricRates.Proofs.Family.Sorted
import MetricRates.Proofs.Settings.Layers

/-!
# A table overrides what it sets

The plan of a table starts from the plan of its preset, or from a plan with the metric, the
labels and the kind of the table and all else unset.  Each key that the table sets takes
the place of what was there, and each key that it leaves unset changes nothing.
-/

namespace MetricRates

/-- A set of labels is that of a list when it has the same members. -/
theorem LabelSet.eq_ofList_iff {set : LabelSet} {labels : List String} :
    set = .ofList labels ↔ ∀ label, label ∈ set ↔ label ∈ labels := by
  constructor
  · rintro rfl label
    exact LabelSet.mem_ofList
  · intro same
    have members : set.members = (LabelSet.ofList labels).members :=
      eq_of_ascending (fun _ _ => String.lt_asymm) set.ascending
        (LabelSet.ofList labels).ascending fun label =>
          (same label).trans LabelSet.mem_ofList.symm
    cases set
    simp_all

/-- A value is laid over a base: it is the one that is set, and that of the base where none
is set. -/
structure LaidOver {α : Type} (setting : Option α) (base value : α) : Prop where
  set : ∀ given, setting = some given → value = given
  unset : setting = none → value = base

theorem laidOver_iff {α : Type} {setting : Option α} {base value : α} :
    LaidOver setting base value ↔ value = setting.getD base := by
  cases setting with
  | none => exact ⟨fun laid => laid.unset rfl, fun same => ⟨nofun, fun _ => same⟩⟩
  | some given =>
      refine ⟨fun laid => laid.set given rfl, fun same => ⟨?_, nofun⟩⟩
      exact fun other isOther => same.trans (Option.some.inj isOther)

theorem LaidOver.eq {α : Type} {setting : Option α} {base first second : α}
    (one : LaidOver setting base first) (other : LaidOver setting base second) :
    first = second :=
  (laidOver_iff.mp one).trans (laidOver_iff.mp other).symm

theorem laidOver_getD {α : Type} (setting : Option α) (base : α) :
    LaidOver setting base (setting.getD base) :=
  laidOver_iff.mpr rfl

namespace FamilySettings

variable {table : FamilySettings} {common : Option Window}

/-- The plan that a table starts from. -/
inductive StartsFrom (table : FamilySettings) : FamilyPlan → Prop
  /-- The plan of the built-in family that the table names as its preset. -/
  | preset {preset : Preset} (builtIn : preset ∈ presets)
      (named : table.preset = some preset.name) : StartsFrom table preset.plan
  /-- A line chart of a family with all else unset, for a table without preset. -/
  | own {metric : String} {labels : List String} {kind : MetricKind}
      (noPreset : table.preset = none) (hasMetric : table.metric = some metric)
      (hasLabels : table.labels = some labels) (hasKind : table.kind = some kind) :
      StartsFrom table
        { spec := .new metric (.ofList labels) kind
          chart := { kind := .line, title := metric, unit := "", group := none } }

/-- What a table makes of the plan that it starts from, its name and window apart. -/
structure LaysOver (table : FamilySettings) (start plan : FamilyPlan) : Prop where
  metric : LaidOver table.metric start.spec.metric plan.spec.metric
  labels_set : ∀ labels, table.labels = some labels →
    ∀ label, label ∈ plan.spec.labels ↔ label ∈ labels
  labels_unset : table.labels = none → plan.spec.labels = start.spec.labels
  kind : LaidOver table.kind start.spec.kind plan.spec.kind
  aggregation : LaidOver table.aggregation start.spec.aggregation plan.spec.aggregation
  unitScale : LaidOver table.unitScale start.spec.unitScale plan.spec.unitScale
  columnOrder : LaidOver (table.columnOrder.map some) start.spec.columnOrder
    plan.spec.columnOrder
  orderPolicy : LaidOver table.orderPolicy start.spec.orderPolicy plan.spec.orderPolicy
  resetPolicy : LaidOver table.resetPolicy start.spec.resetPolicy plan.spec.resetPolicy
  leadingFill : LaidOver table.leadingFill start.spec.leadingFill plan.spec.leadingFill
  chart : LaidOver table.chart start.chart.kind plan.chart.kind
  title : LaidOver table.title start.chart.title plan.chart.title
  unit : LaidOver table.unit start.chart.unit plan.chart.unit
  /-- An empty text takes the family out of the group of its preset. -/
  group : LaidOver (table.group.map fun group => if group = "" then none else some group)
    start.chart.group plan.chart.group

/-! ## The parts of a plan -/

theorem base_eq_ok_iff_of_preset {name title : String} (inherits : table.preset = some title)
    {base : FamilyPlan} :
    table.base name = .ok base ↔
      ∃ preset ∈ presets, preset.name = title ∧ preset.plan = base := by
  have named (preset : Preset) :
      Preset.find? title = some preset ↔ preset ∈ presets ∧ preset.name = title := by
    constructor
    · exact fun found => ⟨List.mem_of_find?_eq_some found, by simpa using List.find?_some found⟩
    · rintro ⟨builtIn, rfl⟩
      exact Preset.find?_name builtIn
  simp only [FamilySettings.base, inherits, ← and_assoc, ← named]
  cases Preset.find? title <;> simp

theorem base_eq_ok_iff {name : String} {base : FamilyPlan} :
    table.base name = .ok base ↔ StartsFrom table base := by
  cases inherits : table.preset with
  | some title =>
      rw [base_eq_ok_iff_of_preset inherits]
      constructor
      · rintro ⟨preset, builtIn, rfl, rfl⟩
        exact .preset builtIn inherits
      · intro starts
        cases starts with
        | @preset preset builtIn named =>
            exact ⟨preset, builtIn, Option.some.inj (named.symm.trans inherits), rfl⟩
        | own noPreset => simp [inherits] at noPreset
  | none =>
      simp only [FamilySettings.base, inherits, bind_eq_ok_iff, required_eq_ok_iff, pure,
        Except.pure, Except.ok.injEq]
      constructor
      · rintro ⟨metric, hasMetric, labels, hasLabels, kind, hasKind, rfl⟩
        exact .own inherits hasMetric hasLabels hasKind
      · intro starts
        cases starts with
        | preset builtIn named => simp [inherits] at named
        | own _ hasMetric hasLabels hasKind =>
            exact ⟨_, hasMetric, _, hasLabels, _, hasKind, rfl⟩

theorem StartsFrom.window {start : FamilyPlan} (starts : StartsFrom table start) :
    start.spec.window = .default := by
  cases starts <;> rfl

theorem groupOver_eq (table : FamilySettings) (base : Option String) :
    table.groupOver base =
      (table.group.map fun group => if group = "" then none else some group).getD base := by
  unfold groupOver
  cases table.group <;> simp

theorem laysOver_planOver (table : FamilySettings) (name : String) (window : Window)
    (start : FamilyPlan) : LaysOver table start (table.planOver name window start) where
  metric := laidOver_getD _ _
  labels_set := by
    intro labels given
    simp only [planOver, given, Option.map_some, Option.getD_some]
    exact fun label => LabelSet.mem_ofList
  labels_unset := by
    intro unset
    simp only [planOver, unset, Option.map_none, Option.getD_none]
  kind := laidOver_getD _ _
  aggregation := laidOver_getD _ _
  unitScale := laidOver_getD _ _
  columnOrder := by
    rw [laidOver_iff, planOver]
    cases table.columnOrder <;> rfl
  orderPolicy := laidOver_getD _ _
  resetPolicy := laidOver_getD _ _
  leadingFill := laidOver_getD _ _
  chart := laidOver_getD _ _
  title := laidOver_getD _ _
  unit := laidOver_getD _ _
  group := laidOver_iff.mpr (groupOver_eq table _)

/-- Two plans that a table makes of one start differ at most in name and window. -/
theorem LaysOver.eq {start first second : FamilyPlan} (one : LaysOver table start first)
    (other : LaysOver table start second) (name : first.name = second.name)
    (window : first.spec.window = second.spec.window) : first = second := by
  have labels : first.spec.labels = second.spec.labels := by
    cases given : table.labels with
    | none => exact (one.labels_unset given).trans (other.labels_unset given).symm
    | some labels =>
        exact (LabelSet.eq_ofList_iff.mpr (one.labels_set labels given)).trans
          (LabelSet.eq_ofList_iff.mpr (other.labels_set labels given)).symm
  obtain ⟨⟨⟩, ⟨⟩⟩ := first
  obtain ⟨⟨⟩, ⟨⟩⟩ := second
  simp only [FamilyPlan.mk.injEq, FamilySpec.mk.injEq, ChartStyle.mk.injEq]
  exact ⟨⟨name, one.metric.eq other.metric, labels, one.kind.eq other.kind, window,
      one.aggregation.eq other.aggregation, one.unitScale.eq other.unitScale,
      one.columnOrder.eq other.columnOrder, one.orderPolicy.eq other.orderPolicy,
      one.resetPolicy.eq other.resetPolicy, one.leadingFill.eq other.leadingFill⟩,
    one.chart.eq other.chart, one.title.eq other.title, one.unit.eq other.unit,
    one.group.eq other.group⟩

theorem planOver_eq_iff {name : String} {window : Window} {start plan : FamilyPlan} :
    table.planOver name window start = plan ↔
      plan.name = name ∧ plan.spec.window = window ∧ LaysOver table start plan := by
  constructor
  · rintro rfl
    exact ⟨rfl, rfl, laysOver_planOver ..⟩
  · rintro ⟨rfl, rfl, laid⟩
    exact (laysOver_planOver ..).eq laid rfl rfl

/-- A table has a plan exactly when there is one to start from, a name, and a window of at
least one row.  The name is the first one set among name, preset and metric; the window is
that of the table, or else the common one, or else ten rows; and all other parts are what
the table lays over the start. -/
theorem plan_iff_overrides (table : FamilySettings) (position : Nat) (common : Option Window)
    (plan : FamilyPlan) :
    table.plan position common = .ok plan ↔
      ∃ start, StartsFrom table start ∧
        [table.name, table.preset, table.metric].findSome? id = some plan.name ∧
        plan.spec.window.rows = (table.window.or (common.map Window.rows)).getD 10 ∧
        LaysOver table start plan := by
  have titled : table.title? =
      [table.name, table.preset, table.metric].findSome? id := by
    unfold title?
    cases table.name <;> cases table.preset <;> cases table.metric <;> rfl
  rw [plan_eq_ok_iff, ← titled]
  constructor
  · rintro ⟨name, start, window, named, based, windowed, planned⟩
    obtain ⟨rfl, rfl, laid⟩ := planOver_eq_iff.mp planned
    have starts := base_eq_ok_iff.mp based
    rw [windowOver_eq_ok_iff, starts.window] at windowed
    exact ⟨start, starts, named, windowed, laid⟩
  · rintro ⟨start, starts, named, windowed, laid⟩
    refine ⟨plan.name, start, plan.spec.window, named, base_eq_ok_iff.mpr starts, ?_,
      planOver_eq_iff.mpr ⟨rfl, rfl, laid⟩⟩
    rw [windowOver_eq_ok_iff, starts.window]
    exact windowed

/-- A table that changes the window of a preset and draws the family on its own. -/
example :
    let table : FamilySettings :=
      { preset := some "network_rx", window := some 3, group := some "" }
    (table.plan 0 (Window.ofNat? 5)).toOption.map (fun plan =>
        (plan.name, plan.spec.metric, plan.spec.window.rows, plan.chart)) =
      some ("network_rx", "network_rx", 3, ⟨.line, "Network RX", "MB/s", none⟩) := by
  decide +kernel

end FamilySettings

end MetricRates
