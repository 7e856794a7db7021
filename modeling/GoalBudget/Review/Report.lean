import GoalBudget.Review.Prospect
import GoalBudget.Review.Sensitivity

/-!
# Requests and reports

A request is a budget to be allocated in a scenario, and may ask for the prospects under all presets
and for the sensitivity of the budget. The report holds what was asked for (section 6 of the
specification). The allocation comes first, then the prospects, then the sensitivity, and the first
fault ends the report.

Also here is which budgets are allocated on the way, in order, so that the sessions with backends
can be told (`Request.tasks`). The list does not depend on what the allocations lead to: a budget
that is refused is left out, and one that fails is still listed.
-/

namespace GoalBudget

/-- A budget to be allocated, and what else is to be known about it. -/
structure Request (α : Type) [Scalar α] where
  budget : Budget α
  scenario : Scenario α
  /-- Whether the prospects under all presets are asked for. -/
  wantsProspects : Bool
  /-- Whether the sensitivity is asked for. -/
  wantsSensitivity : Bool

/-- The answer to a request. -/
structure Report (α : Type) [Scalar α] where
  scenario : Scenario α
  allocation : Allocation α
  prospects : Option (List (Prospect α))
  sensitivity : Option (Sensitivity α)

variable {α : Type} [Scalar α]

namespace Allocator

/-- A computation made only if it is asked for. -/
def ifWanted {β : Type} (wanted : Bool) (x : Except (Fault α) β) : Except (Fault α) (Option β) :=
  if wanted then some <$> x else .ok none

/-- The report on a request. -/
def report (a : Allocator α) (r : Request α) : Except (Fault α) (Report α) := do
  let allocation ← a.solve r.budget r.scenario
  let prospects ← ifWanted r.wantsProspects (a.prospects r.budget Preset.names)
  let sensitivity ← ifWanted r.wantsSensitivity
    (a.sensitivity r.budget r.scenario Sensitivity.incomeChanges Sensitivity.rateChanges)
  return ⟨r.scenario, allocation, prospects, sensitivity⟩

end Allocator

/-! ## What is allocated on the way -/

/-- A budget to be allocated in a scenario. -/
structure Task (α : Type) [Scalar α] where
  budget : Budget α
  scenario : Scenario α

/-- What is allocated for the prospects of a budget. -/
def Budget.prospectTasks (b : Budget α) (names : List String) : List (Task α) :=
  names.filterMap fun name => (Preset.named name).toOption.map fun s => ⟨b, s⟩

/-- What is allocated for the sensitivity of a budget. -/
def Budget.sensitivityTasks (b : Budget α) (s : Scenario α) (incomeChanges : List α) :
    List (Task α) :=
  ⟨b, s⟩ ::
    (incomeChanges.filterMap fun change =>
        (b.withIncome (b.income * (1 + change))).toOption.map fun changed => ⟨changed, s⟩) ++
    b.weightedGoals.flatMap fun e => [⟨b.raiseGoal e.1, s⟩, ⟨b.lowerGoal e.1, s⟩]

/-- What is allocated for a report. -/
def Request.tasks (r : Request α) : List (Task α) :=
  ⟨r.budget, r.scenario⟩ ::
    (if r.wantsProspects then r.budget.prospectTasks Preset.names else []) ++
    (if r.wantsSensitivity then
      r.budget.sensitivityTasks r.scenario Sensitivity.incomeChanges
    else [])

/-- The sessions with backends while some budgets are allocated. -/
def Allocator.sessions (a : Allocator α) (tasks : List (Task α)) : List (Session α) :=
  tasks.filterMap fun t => a.session? t.budget t.scenario

end GoalBudget
