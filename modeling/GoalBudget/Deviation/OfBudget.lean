import GoalBudget.Budget.Basic
import GoalBudget.Deviation.Basic
import GoalBudget.Strategy.Priority

/-!
# Deviation goals of budgets

Two ways of turning a budget into goals with targets: tiers for serving goals in strict order, and
penalties for the linear program. All goals are "at least". The order of the tiers is that of
section 4.4 of the specification: mandatory minimums, payments due on debts, the emergency fund,
important savings goals, extra payments on debts, other savings goals, flexible spending.

Goals of the later tiers are on variables that are already there, and are put behind all other
goals: the program under construction keeps them as functions of the position of the variable
(`DeviationProgram.Draft`). Extra payments are goals on the variable of the debt itself, with an id
of their own. The linear program has none.

Within a tier savings goals go by their priority weights and extra payments by the priority of the
debt. These weights are whole numbers, and the fault of one that no amount can hold is passed on
(`DeviationProgram.goalTier`).

A savings goal that is complete has neither variable nor goal. A category or debt always has both,
even where there is nothing to pay.
-/

namespace GoalBudget

variable {α : Type} [Scalar α]

/-- The target of flexible spending: as far between its bounds as the spending level says,
and the minimum where there is no maximum. -/
def flexibleTarget (minimum maximum level : α) : α :=
  if 0 < maximum then minimum + (maximum - minimum) * level else minimum

namespace Category

/-- The target of a flexible category at a spending level. -/
def targetAt (c : Category α) (level : α) : α := flexibleTarget c.minimum c.maximum level

end Category

namespace DeviationProgram

/-- A variable with an "at least" goal on it. -/
def addAtLeast (p : DeviationProgram α) (v : Variable α) (key : String) (target : α)
    (priority : Int) (weight : α) (description : String) :
    Except (Fault α) (DeviationProgram α) :=
  p.addItem v fun index => ⟨key, index, target, .atLeast, priority, weight, description⟩

/-- The variable of a category: within the category's bounds. -/
def categoryVariable (key : String) (c : Category α) : Except (Fault α) (Variable α) :=
  Variable.make key key .category c.minimum c.maximum

/-- The variable of a debt: from the payment due to the balance. -/
def debtVariable (key : String) (d : Debt α) : Except (Fault α) (Variable α) :=
  Variable.make key d.name .debt d.scheduledPayment (greatest d.currentBalance d.scheduledPayment)

/-- The variable of a savings goal: up to what is missing. -/
def goalVariable (key : String) (g : Goal α) : Except (Fault α) (Variable α) :=
  Variable.make key g.name .goal 0 g.remainingAmount

/-- The goals put behind those there are. -/
def addGoals (p : DeviationProgram α) (goals : List (Nat × (Nat → DeviationGoal α))) :
    Except (Fault α) (DeviationProgram α) :=
  goals.foldlM (fun p g => p.addGoal g.1 g.2) p

/-! ## Strict order -/

/-- A program under construction with goals that are still to be added. -/
structure Draft (α : Type) [Scalar α] where
  program : DeviationProgram α
  /-- The goals to come, with the positions of their variables. -/
  pending : List (Nat × (Nat → DeviationGoal α))

/-- Mandatory minimums: tier 1. -/
def tierMandatory (p : DeviationProgram α) (key : String) (c : Category α) :
    Except (Fault α) (DeviationProgram α) := do
  p.addAtLeast (← categoryVariable key c) key c.minimum 1 1 "Mandatory expense"

/-- Debt payments due: tier 2. -/
def tierDebt (p : DeviationProgram α) (key : String) (d : Debt α) :
    Except (Fault α) (DeviationProgram α) := do
  p.addAtLeast (← debtVariable key d) key d.scheduledPayment 2 1
    ("Minimum payment for " ++ d.name)

/-- The tier of a savings goal and its weight in it: emergency 3, important ones 4, others 6. -/
def goalTier (g : Goal α) : Except (Fault α) (Int × α) :=
  if g.isEmergency then .ok (3, 1)
  else if g.priorityWeight ≤ 10 then do return (4, ← ofWhole (11 - g.priorityWeight))
  else do return (6, ← ofWhole (100 - g.priorityWeight))

/-- The variable of a savings goal; the goal itself is to come. A complete goal is left out. -/
def draftGoal (factor : α) (d : Draft α) (key : String) (g : Goal α) :
    Except (Fault α) (Draft α) := do
  if g.remainingAmount ≤ 0 then return d
  let v ← goalVariable key g
  let (tier, weight) ← goalTier g
  let goal index : DeviationGoal α := ⟨key, index, g.target factor, .atLeast, tier, weight, g.name⟩
  return ⟨d.program.addVariable v, d.pending ++ [(d.program.vars.length, goal)]⟩

/-- The extra payment of a debt, as a goal to come on the debt's variable: tier 5. A debt with
a forced payment has none. -/
def draftExtra (share : α) (d : Draft α) (position : Nat) (key : String) (debt : Debt α) :
    Except (Fault α) (Draft α) := do
  if debt.isForced then return d
  let target := debt.minimumPayment * (1 + share)
  let weight ← ofWhole (100 - debt.priority)
  let goal index : DeviationGoal α :=
    ⟨key ++ ":extra", index, target, .atLeast, 5, weight, "Extra payment for " ++ debt.name⟩
  return { d with pending := d.pending ++ [(position, goal)] }

/-- Flexible targets: tier 7. -/
def tierFlexible (p : DeviationProgram α) (level : α) (key : String) (c : Category α) :
    Except (Fault α) (DeviationProgram α) := do
  p.addAtLeast (← categoryVariable key c) key (c.targetAt level) 7 1 "Flexible spending"

/-- The tiers of a budget in a scenario. The items of each ledger come by ascending id. -/
def tiersOfBudget (b : Budget α) (s : Scenario α) : Except (Fault α) (DeviationProgram α) := do
  let debts := b.debts.sorted.entries
  let p ← b.mandatory.sorted.entries.foldlM (fun p e => tierMandatory p e.1 e.2)
    (.ofIncome b.income)
  let firstDebt := p.vars.length
  let p ← debts.foldlM (fun p e => tierDebt p e.1 e.2) p
  let d ← b.goals.sorted.entries.foldlM (fun d e => draftGoal s.goalFactor d e.1 e.2) ⟨p, []⟩
  let d ← debts.zipIdx.foldlM
    (fun d e => draftExtra s.shares.debtExtra d (firstDebt + e.2) e.1.1 e.1.2) d
  let p ← d.program.addGoals d.pending
  b.flexible.sorted.entries.foldlM (fun p e => tierFlexible p s.spendingLevel e.1 e.2) p

/-! ## Penalties -/

/-- Mandatory minimums: penalty 100. -/
def penalizeMandatory (p : DeviationProgram α) (key : String) (c : Category α) :
    Except (Fault α) (DeviationProgram α) := do
  p.addAtLeast (← categoryVariable key c) key c.minimum 1 100 ""

/-- Debt payments due: penalty 80. -/
def penalizeDebt (p : DeviationProgram α) (key : String) (d : Debt α) :
    Except (Fault α) (DeviationProgram α) := do
  p.addAtLeast (← debtVariable key d) key d.scheduledPayment 2 80 ""

/-- The tier of a savings goal and its penalty: emergency 50, important ones 30, others 10. -/
def goalPenalty (g : Goal α) : Int × α :=
  if g.isEmergency then (3, 50) else if g.priorityWeight ≤ 10 then (4, 30) else (6, 10)

/-- A savings goal. A complete goal is left out. -/
def penalizeGoal (factor : α) (p : DeviationProgram α) (key : String) (g : Goal α) :
    Except (Fault α) (DeviationProgram α) := do
  if g.remainingAmount ≤ 0 then return p
  let (tier, penalty) := goalPenalty g
  p.addAtLeast (← goalVariable key g) key (g.target factor) tier penalty g.name

/-- Flexible targets: penalty 5. -/
def penalizeFlexible (p : DeviationProgram α) (level : α) (key : String) (c : Category α) :
    Except (Fault α) (DeviationProgram α) := do
  p.addAtLeast (← categoryVariable key c) key (c.targetAt level) 7 5 ""

/-- The penalties of a budget in a scenario. The items of each ledger come by ascending id. -/
def penaltiesOfBudget (b : Budget α) (s : Scenario α) :
    Except (Fault α) (DeviationProgram α) := do
  let p ← b.mandatory.sorted.entries.foldlM (fun p e => penalizeMandatory p e.1 e.2)
    (.ofIncome b.income)
  let p ← b.debts.sorted.entries.foldlM (fun p e => penalizeDebt p e.1 e.2) p
  let p ← b.goals.sorted.entries.foldlM (fun p e => penalizeGoal s.goalFactor p e.1 e.2) p
  b.flexible.sorted.entries.foldlM (fun p e => penalizeFlexible p s.spendingLevel e.1 e.2) p

end DeviationProgram

end GoalBudget
