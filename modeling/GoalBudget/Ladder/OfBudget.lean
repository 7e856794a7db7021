import GoalBudget.Fuzzy.OfBudget
import GoalBudget.Ladder.Basic

/-!
# Goal programs with ladders of budgets

The second of the builders in section 10.5 of the specification. Mandatory spending has one required
level, a debt the minimum, a satisfactory and an ideal payment, a savings goal five levels up to 120
% of its target, and flexible spending four levels between its minimum and 120 % of its maximum.
Priorities are 1, 2 and 3 for the first three kinds and that of the category for the last.

Rewards are fixed for mandatory spending and debts, and multiples of a weight for the other two: the
weight of a savings goal is that of the fuzzy strategy (`goalWeight`), that of flexible spending is
four for the first priority and two otherwise.

A debt with a forced payment has this one level, and its variable no room beside it. The
satisfactory and the ideal payment of other debts end at the balance, and are equal where the
balance is small.
-/

namespace GoalBudget

variable {α : Type} [Scalar α]

namespace LadderProgram

/-- A variable with a goal on it. -/
def addLadder (p : LadderProgram α) (v : Variable α) (key : String) (levels : List (Level α))
    (priority : Int) (weight : α) (description : String) :
    Except (Fault α) (LadderProgram α) := do
  let levels ← LadderGoal.checkLevels key levels
  p.addItem v fun index => ⟨key, index, levels, priority, weight, description⟩

/-- A mandatory expense: its minimum. -/
def addMandatory (p : LadderProgram α) (key : String) (c : Category α) :
    Except (Fault α) (LadderProgram α) := do
  let v ← Variable.make key key .category c.minimum c.maximum
  p.addLadder v key [⟨c.minimum, 100, "required"⟩] 1 1 ""

/-- The levels of a debt: its minimum, and that much and half that much of a share on top,
up to the balance. -/
def debtLevels (minimum share balance : α) : List (Level α) :=
  [ ⟨minimum, 50, "minimum"⟩,
    ⟨least (minimum * (1 + share * 0.5)) balance, 75, "satisfactory"⟩,
    ⟨least (minimum * (1 + share)) balance, 100, "ideal"⟩ ]

/-- A debt: its levels, or the forced payment alone. -/
def addDebt (p : LadderProgram α) (share : α) (key : String) (d : Debt α) :
    Except (Fault α) (LadderProgram α) := do
  let due := d.scheduledPayment
  let weight := d.interestRate / 10
  if d.isForced then
    let v ← Variable.make key d.name .debt due due
    p.addLadder v key [⟨due, 100, "fixed"⟩] 2 weight ""
  else
    let balance := greatest d.currentBalance due
    let v ← Variable.make key d.name .debt due balance
    p.addLadder v key (debtLevels due share balance) 2 weight ""

/-- The levels of a savings goal: 0, 40, 80, 100 and 120 % of its target. -/
def goalLevels (target weight : α) : List (Level α) :=
  [ ⟨target * 0 / 100, weight * 0, "0%"⟩, ⟨target * 40 / 100, weight * 1, "40%"⟩,
    ⟨target * 80 / 100, weight * 2, "80%"⟩, ⟨target * 100 / 100, weight * 3, "100%"⟩,
    ⟨target * 120 / 100, weight * 4, "120%"⟩ ]

/-- A savings goal. -/
def addGoalItem (p : LadderProgram α) (factor : α) (key : String) (g : Goal α) :
    Except (Fault α) (LadderProgram α) := do
  let target := g.target factor
  let ceiling := greatest (g.remainingAmount * 1.5) (target * 1.2)
  if ceiling ≤ 0 then return p
  let weight : α := goalWeight g.priorityWeight g.isEmergency
  let v ← Variable.make key g.name .goal 0 ceiling
  p.addLadder v key (goalLevels target weight) 3 weight g.name

/-- The levels of flexible spending between two bounds. -/
def flexibleLevels (minimum maximum weight : α) : List (Level α) :=
  let span := maximum - minimum
  [ ⟨minimum + span * 0.4, weight, "basic"⟩, ⟨minimum + span * 0.8, weight * 2, "comfortable"⟩,
    ⟨maximum, weight * 3, "full"⟩, ⟨maximum * 1.2, weight * 4, "generous"⟩ ]

/-- Flexible spending. Without a maximum, half as much again as the minimum counts as one. -/
def addFlexible (p : LadderProgram α) (key : String) (c : Category α) :
    Except (Fault α) (LadderProgram α) := do
  let maximum := if 0 < c.maximum then c.maximum else c.minimum * 1.5
  if maximum ≤ 0 then return p
  let priority := c.effectivePriority
  let weight : α := if priority = 1 then 4 else 2
  let v ← Variable.make key key .category c.minimum (maximum * 1.2)
  p.addLadder v key (flexibleLevels c.minimum maximum weight) priority weight ""

/-- The program of a budget in a scenario. The items of each ledger come by ascending id. -/
def ofBudget (b : Budget α) (s : Scenario α) : Except (Fault α) (LadderProgram α) := do
  let p ← b.mandatory.sorted.entries.foldlM (fun p e => addMandatory p e.1 e.2) (.ofIncome b.income)
  let p ← b.debts.sorted.entries.foldlM (fun p e => addDebt p s.shares.debtExtra e.1 e.2) p
  let p ← b.goals.sorted.entries.foldlM (fun p e => addGoalItem p s.goalFactor e.1 e.2) p
  b.flexible.sorted.entries.foldlM (fun p e => addFlexible p e.1 e.2) p

end LadderProgram

end GoalBudget
