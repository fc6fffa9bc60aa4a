import MetricRates.Chart.Style
import MetricRates.Family.Output

/-!
# Deriving all families

Each planned family is processed by a task of its own.  The tasks may finish in
any order; their results are put into the order of the plans.
-/

namespace MetricRates.Report

/-- The result of a task with the position of its plan. -/
structure Finished (α : Type) where
  position : Nat
  result : α

/-- The results of tasks in the order of their positions. -/
def inPlanOrder {α : Type} (finished : List (Finished α)) : List α :=
  (finished.mergeSort fun a b => decide (a.position ≤ b.position)).map Finished.result

/-- The result of processing a family. -/
abbrev Derived := Except EngineError FamilyOutput

/-- The task at a position, once it has finished. -/
def finishedTask (samples : List Sample) (plans : List FamilyPlan) (position : Nat) :
    Option (Finished Derived) :=
  plans[position]?.map fun plan => ⟨position, plan.spec.process samples⟩

/-- The results of all families, where the tasks finish in the given order of
positions. -/
def deriveInOrder (completion : List Nat) (samples : List Sample) (plans : List FamilyPlan) :
    List Derived :=
  inPlanOrder (completion.filterMap (finishedTask samples plans))

/-- The results of all families. -/
def deriveAll (samples : List Sample) (plans : List FamilyPlan) : List Derived :=
  deriveInOrder (List.range plans.length) samples plans

end MetricRates.Report
