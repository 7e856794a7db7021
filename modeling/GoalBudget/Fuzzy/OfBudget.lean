import GoalBudget.Budget.Basic
import GoalBudget.Fuzzy.Basic

/-!
# Fuzzy goal programs of budgets

The first of the builders in section 10.5 of the specification. Mandatory spending gets a narrow
plateau around its minimum, a debt a line from the minimum payment to the balance, a savings goal a
sigmoid up to its target, and flexible spending a chain of tiers towards the target of the spending
level. Priorities are 1, 2 and 3 for the first three kinds and that of the category for the last.

Weights within a tier differ by kind as well: ten for mandatory spending, ten times the interest
rate for a debt, a step function of the priority weight for a savings goal (`goalWeight`), and one
of the priority for flexible spending (`flexibleWeight`).

Items without anything to spend on get no variable: a category without minimum and maximum, a debt
without balance and payment, a goal that is complete. A variable may be larger than what its curve
rewards; a goal may take half as much again as it lacks, and flexible spending a fifth more than its
target.
-/

namespace GoalBudget

variable {α : Type} [Scalar α]

/-- The weight of a goal by its priority weight. -/
def goalWeight (priorityWeight : Int) (isEmergency : Bool) : α :=
  if isEmergency then 6
  else if priorityWeight ≤ 1 then 5
  else if priorityWeight ≤ 10 then 3
  else if priorityWeight ≤ 20 then 2
  else 1

/-- The weight of flexible spending by its priority. -/
def flexibleWeight (priority : Int) : α :=
  if priority ≤ 2 then 3 else if priority ≤ 4 then 2 else if priority ≤ 6 then 1.5 else 1

/-- The fractions of the way to the target at which a tier of flexible spending is complete,
with the satisfaction there. -/
def flexibleTiers : List (α × α) := [(1 / 3, 1), (2 / 3, 1.7), (1, 2)]

/-- The curve of flexible spending between two bounds at a spending level, and the amount at
which it is complete: 120 % of the target or of the maximum. Without a maximum the curve
reaches to three times the minimum. -/
def flexibleCurve (minimum maximum level : α) : Except (Fault α) (Curve α × α) := do
  let maximum := if maximum ≤ 0 then minimum * 3 else maximum
  let target := minimum + (maximum - minimum) * level
  let complete := least (target * 1.2) (maximum * 1.2)
  let inner := flexibleTiers.map fun (t : α × α) => (minimum + (target - minimum) * t.1, t.2)
  let curve ← Curve.throughPoints ((minimum, 0) :: inner ++ [(complete, 2.1)])
  return (curve, complete)

namespace FuzzyProgram

/-- A mandatory expense: full satisfaction within 5 % of the minimum, none beyond 10 %. -/
def addMandatory (p : FuzzyProgram α) (key : String) (c : Category α) :
    Except (Fault α) (FuzzyProgram α) := do
  let target := c.minimum
  if greatest target c.maximum ≤ 0 then return p
  let v ← Variable.make key key .category target (if isNonzero c.maximum then c.maximum else target)
  let tolerance := target * 0.05
  let curve ← Curve.trapezoidal (target - 2 * tolerance) (target - tolerance)
    (target + tolerance) (target + 2 * tolerance)
  p.addItem v fun index => ⟨key, index, curve, 1, 10, "Mandatory expense"⟩

/-- A debt: from the minimum payment to the balance, or the forced payment alone. -/
def addDebt (p : FuzzyProgram α) (key : String) (d : Debt α) :
    Except (Fault α) (FuzzyProgram α) := do
  let low := if d.isForced then d.fixedPayment else d.minimumPayment
  let high :=
    if d.isForced then d.fixedPayment else greatest d.currentBalance d.minimumPayment
  if high ≤ 0 then return p
  let v ← Variable.make key d.name .debt low high
  let curve ← Curve.linear low high
  p.addItem v fun index => ⟨key, index, curve, 2, d.interestRate * 10, "Debt: " ++ d.name⟩

/-- A savings goal: a sigmoid up to the target. -/
def addGoalItem (p : FuzzyProgram α) (factor : α) (key : String) (g : Goal α) :
    Except (Fault α) (FuzzyProgram α) := do
  let target := g.target factor
  let ceiling := greatest (g.remainingAmount * 1.5) (target * 1.2)
  if ceiling ≤ 0 then return p
  let v ← Variable.make key g.name .goal 0 ceiling
  let curve ← Curve.sCurve 0 (target * 0.3) (target * 0.7) target
  p.addItem v fun index =>
    ⟨key, index, curve, 3, goalWeight g.priorityWeight g.isEmergency, g.name⟩

/-- Flexible spending: tiers towards the target of the spending level. -/
def addFlexible (p : FuzzyProgram α) (level : α) (key : String) (c : Category α) :
    Except (Fault α) (FuzzyProgram α) := do
  let (curve, complete) ← flexibleCurve c.minimum c.maximum level
  if complete ≤ 0 then return p
  let v ← Variable.make key key .category c.minimum complete
  let priority := c.effectivePriority
  p.addItem v fun index =>
    ⟨key, index, curve, priority, flexibleWeight priority, "Flexible expense"⟩

/-- The program of a budget in a scenario. The items of each ledger come by ascending id. -/
def ofBudget (b : Budget α) (s : Scenario α) : Except (Fault α) (FuzzyProgram α) := do
  let p ← b.mandatory.sorted.entries.foldlM (fun p e => addMandatory p e.1 e.2) (.ofIncome b.income)
  let p ← b.debts.sorted.entries.foldlM (fun p e => addDebt p e.1 e.2) p
  let p ← b.goals.sorted.entries.foldlM (fun p e => addGoalItem p s.goalFactor e.1 e.2) p
  b.flexible.sorted.entries.foldlM (fun p e => addFlexible p s.spendingLevel e.1 e.2) p

end FuzzyProgram

end GoalBudget
