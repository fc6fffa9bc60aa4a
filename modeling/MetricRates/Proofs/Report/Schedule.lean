import Mathlib.Data.List.Nodup
import MetricRates.Report.Derivation
import MetricRates.Settings.Preset

/-!
# Deriving does not depend on the schedule

One task for each plan is spawned, in the order of the plans.  A task that was spawned
can finish at any time, before or after any other.  Whatever the schedule, sorting the
results by their positions gives the result of each plan in the order of the plans.
-/

namespace MetricRates.Report

/-! ## Schedules -/

/-- What can have happened to the tasks: how many are spawned, which of them still run,
and the results of the others in the order in which they finished. -/
inductive Schedule (samples : List Sample) (plans : List FamilyPlan) :
    Nat → List Nat → List (Finished Derived) → Prop
  | start : Schedule samples plans 0 [] []
  | spawn {next : Nat} {running : List Nat} {finished : List (Finished Derived)} :
      Schedule samples plans next running finished → next < plans.length →
        Schedule samples plans (next + 1) (running ++ [next]) finished
  | finish {next position : Nat} {before after : List Nat} {finished : List (Finished Derived)}
      {task : Finished Derived} :
      Schedule samples plans next (before ++ position :: after) finished →
        finishedTask samples plans position = some task →
        Schedule samples plans next (before ++ after) (finished ++ [task])

variable {samples : List Sample} {plans : List FamilyPlan}

theorem finishedTask_eq_some_iff {position : Nat} {task : Finished Derived} :
    finishedTask samples plans position = some task ↔
      ∃ plan, plans[position]? = some plan ∧ task = ⟨position, plan.spec.process samples⟩ := by
  simp [finishedTask, eq_comm (a := task)]

theorem finishedTask_position {position : Nat} {task : Finished Derived}
    (done : finishedTask samples plans position = some task) : task.position = position := by
  obtain ⟨plan, -, rfl⟩ := finishedTask_eq_some_iff.mp done
  rfl

/-- Every task that was spawned either runs or has finished, once, with the result of its
own plan. -/
structure Accounted (samples : List Sample) (plans : List FamilyPlan) (next : Nat)
    (running : List Nat) (finished : List (Finished Derived)) : Prop where
  positions : (running ++ finished.map Finished.position).Perm (List.range next)
  results : ∀ task ∈ finished, finishedTask samples plans task.position = some task

theorem Accounted.spawn {next : Nat} {running : List Nat} {finished : List (Finished Derived)}
    (accounted : Accounted samples plans next running finished) :
    Accounted samples plans (next + 1) (running ++ [next]) finished where
  positions := by
    have moved : (running ++ [next] ++ finished.map Finished.position).Perm
        (running ++ finished.map Finished.position ++ [next]) := by
      rw [List.append_assoc, List.append_assoc]
      exact List.perm_append_comm.append_left running
    rw [List.range_succ]
    exact moved.trans (accounted.positions.append_right [next])
  results := accounted.results

theorem Accounted.finish {next position : Nat} {before after : List Nat}
    {finished : List (Finished Derived)} {task : Finished Derived}
    (accounted : Accounted samples plans next (before ++ position :: after) finished)
    (done : finishedTask samples plans position = some task) :
    Accounted samples plans next (before ++ after) (finished ++ [task]) where
  positions := by
    refine List.Perm.trans ?_ accounted.positions
    rw [List.map_append, List.map_singleton, finishedTask_position done, ← List.append_assoc]
    refine (List.perm_append_singleton position _).trans ?_
    rw [← List.cons_append]
    exact List.perm_middle.symm.append_right _
  results := by
    intro other listed
    rcases List.mem_append.mp listed with earlier | last
    · exact accounted.results other earlier
    · obtain rfl := List.mem_singleton.mp last
      rw [finishedTask_position done]
      exact done

/-- On every schedule each task is accounted for. -/
theorem Schedule.accounted {next : Nat} {running : List Nat} {finished : List (Finished Derived)}
    (schedule : Schedule samples plans next running finished) :
    Accounted samples plans next running finished := by
  induction schedule with
  | start => exact ⟨List.Perm.refl _, fun task listed => absurd listed List.not_mem_nil⟩
  | spawn _ _ accounted => exact accounted.spawn
  | finish _ done accounted => exact accounted.finish done

/-! ## Every order of finishing -/

theorem schedule_spawned {next : Nat} (within : next ≤ plans.length) :
    Schedule samples plans next (List.range next) [] := by
  induction next with
  | zero => exact Schedule.start
  | succ next ih =>
      rw [List.range_succ]
      exact Schedule.spawn (ih (Nat.le_of_succ_le within)) within

theorem Schedule.finishAll {next : Nat} {completion running : List Nat}
    {finished : List (Finished Derived)}
    (schedule : Schedule samples plans next running finished)
    (order : completion.Perm running) (within : ∀ position ∈ completion, position < plans.length) :
    Schedule samples plans next []
      (finished ++ completion.filterMap (finishedTask samples plans)) := by
  induction completion generalizing running finished with
  | nil =>
      obtain rfl := List.nil_perm.mp order
      simpa using schedule
  | cons position completion ih =>
      obtain ⟨before, after, rfl⟩ := List.append_of_mem (order.subset List.mem_cons_self)
      obtain ⟨here, later⟩ := List.forall_mem_cons.mp within
      have done : finishedTask samples plans position =
          some ⟨position, plans[position].spec.process samples⟩ := by
        simp [finishedTask, here]
      have rest : completion.Perm (before ++ after) :=
        (order.trans List.perm_middle).cons_inv
      rw [List.filterMap_cons_some done, List.append_cons]
      exact ih (schedule.finish done) rest later

/-! ## The order of the plans -/

/-- Tasks are known by their positions. -/
theorem filterMap_positions {tasks : List (Finished Derived)}
    (results : ∀ task ∈ tasks, finishedTask samples plans task.position = some task) :
    (tasks.map Finished.position).filterMap (finishedTask samples plans) = tasks := by
  induction tasks with
  | nil => rfl
  | cons task tasks ih =>
      obtain ⟨here, later⟩ := List.forall_mem_cons.mp results
      rw [List.map_cons, List.filterMap_cons_some here, ih later]

theorem filterMap_getElem?_range {α : Type} (list : List α) :
    (List.range list.length).filterMap (fun position => list[position]?) = list := by
  induction list with
  | nil => rfl
  | cons a list ih =>
      rw [List.length_cons, List.range_succ_eq_map,
        List.filterMap_cons_some List.getElem?_cons_zero, List.filterMap_map]
      simpa [Function.comp_def] using ih

/-- The tasks in the order of the plans have the results of the plans. -/
theorem map_result_range :
    ((List.range plans.length).filterMap (finishedTask samples plans)).map Finished.result =
      plans.map fun plan => plan.spec.process samples :=
  calc
    ((List.range plans.length).filterMap (finishedTask samples plans)).map Finished.result =
        ((List.range plans.length).filterMap fun position => plans[position]?).map
          fun plan => plan.spec.process samples := by
      rw [List.map_filterMap, List.map_filterMap]
      simp only [finishedTask, Option.map_map, Function.comp_def]
    _ = plans.map fun plan => plan.spec.process samples := by rw [filterMap_getElem?_range]

/-- Sorting finds the one list with the same tasks in ascending order. -/
theorem inPlanOrder_eq_of_perm {α : Type} {finished tasks : List (Finished α)}
    (permuted : finished.Perm tasks)
    (ascending : tasks.Pairwise fun a b => a.position < b.position) :
    inPlanOrder finished = tasks.map Finished.result := by
  have sorted := @List.pairwise_mergeSort (Finished α)
    (fun a b => decide (a.position ≤ b.position)) (by simpa using fun a b c => Nat.le_trans)
    (by simpa using fun a b : Finished α => Nat.le_total a.position b.position) finished
  have resorted := (finished.mergeSort_perm fun a b => decide (a.position ≤ b.position)).trans
    permuted
  have distinct : (tasks.map Finished.position).Nodup :=
    List.pairwise_map.mpr (ascending.imp Nat.ne_of_lt)
  have same : (finished.mergeSort fun a b => decide (a.position ≤ b.position)) = tasks := by
    refine List.Perm.eq_of_pairwise ?_ sorted (ascending.imp ?_) resorted
    · intro a b first second le ge
      have le : a.position ≤ b.position := of_decide_eq_true le
      have ge : b.position ≤ a.position := of_decide_eq_true ge
      exact List.inj_on_of_nodup_map distinct (resorted.subset first) second
        (Nat.le_antisymm le ge)
    · exact fun less => decide_eq_true (Nat.le_of_lt less)
  rw [inPlanOrder, same]

/-- Once every task has finished, the results in the order of their positions are those
of the plans. -/
theorem Accounted.inPlanOrder_eq {finished : List (Finished Derived)}
    (accounted : Accounted samples plans plans.length [] finished) :
    inPlanOrder finished = plans.map fun plan => plan.spec.process samples := by
  have permuted : finished.Perm
      ((List.range plans.length).filterMap (finishedTask samples plans)) := by
    have moved := accounted.positions.filterMap (finishedTask samples plans)
    rwa [List.nil_append, filterMap_positions accounted.results] at moved
  have ascending : ((List.range plans.length).filterMap (finishedTask samples plans)).Pairwise
      fun a b => a.position < b.position := by
    refine List.Pairwise.filterMap _ ?_ List.pairwise_lt_range
    intro first second less a here b later
    rwa [finishedTask_position here, finishedTask_position later]
  rw [inPlanOrder_eq_of_perm permuted ascending, map_result_range]

theorem schedule_of_perm {completion : List Nat}
    (order : completion.Perm (List.range plans.length)) :
    Schedule samples plans plans.length []
      (completion.filterMap (finishedTask samples plans)) := by
  refine (schedule_spawned (Nat.le_refl _)).finishAll order ?_
  exact fun position listed => List.mem_range.mp (order.subset listed)

theorem deriveInOrder_of_perm {completion : List Nat}
    (order : completion.Perm (List.range plans.length)) :
    deriveInOrder completion samples plans = plans.map fun plan => plan.spec.process samples :=
  (schedule_of_perm order).accounted.inPlanOrder_eq

theorem zip_deriveAll (samples : List Sample) (plans : List FamilyPlan) :
    plans.zip (deriveAll samples plans) =
      plans.map fun plan => (plan, plan.spec.process samples) := by
  rw [deriveAll, deriveInOrder_of_perm (List.Perm.refl _), List.map_prod_left_eq_zip]

/-- Tasks can finish in any order, and in whatever order they do, there is one result for
each plan, in the order of the plans, which is that of processing the family of the plan;
so results and plans meet by their positions alone. -/
theorem deriveInOrder_on_every_schedule (samples : List Sample) (plans : List FamilyPlan) :
    (∀ completion, completion.Perm (List.range plans.length) →
      Schedule samples plans plans.length []
        (completion.filterMap (finishedTask samples plans)) ∧
      deriveInOrder completion samples plans = plans.map fun plan => plan.spec.process samples) ∧
    ∀ finished, Schedule samples plans plans.length [] finished →
      inPlanOrder finished = plans.map (fun plan => plan.spec.process samples) ∧
      plans.zip (inPlanOrder finished) =
        plans.map fun plan => (plan, plan.spec.process samples) := by
  constructor
  · intro completion order
    exact ⟨schedule_of_perm order, deriveInOrder_of_perm order⟩
  · intro finished schedule
    have ordered : inPlanOrder finished = plans.map fun plan => plan.spec.process samples :=
      schedule.accounted.inPlanOrder_eq
    exact ⟨ordered, by rw [ordered, List.map_prod_left_eq_zip]⟩

/-- The last of three families finishes first, and two of them have no samples. -/
theorem deriveInOrder_on_every_schedule_lastFirst :
    let plans := (presets.take 3).map Preset.plan
    let samples : List Sample := [⟨"cpu_self", "total", .clamp 0, 1.0⟩]
    deriveInOrder [2, 0, 1] samples plans = plans.map fun plan => plan.spec.process samples := by
  intro plans samples
  have order : [2, 0, 1].Perm (List.range plans.length) := by decide
  exact ((deriveInOrder_on_every_schedule samples plans).1 [2, 0, 1] order).2

end MetricRates.Report
