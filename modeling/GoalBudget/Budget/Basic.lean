import GoalBudget.Budget.Items
import GoalBudget.Budget.Scenario
import GoalBudget.Ledger

/-!
# Budgets

A budget is the complete input of an allocation: the income of the period and four ledgers of items
(section 3 of the specification). No id appears in two of them, which is part of the type; that none
appears twice in one is part of the type of ledgers.

A budget is made from its parts by `Budget.make`, which checks the income first and then the ids.
The ids that are reported are those that the first ledger shares with the ones before it, in the
order mandatory, flexible, debts, goals. The items have been checked when they were made.

What is committed before anything is decided is the minimum of every mandatory expense and the
payment due to every debt (`Budget.committed`). Whether an income is enough is decided by this alone
(`Budget.shortfall?`); the minimums of flexible categories are not part of it, and are left to the
strategies.
-/

namespace GoalBudget

/-- The first list of ids that shares some with the lists before it: those it shares,
in ascending order. -/
def sharedIds (seen : List String) : List (List String) → Option (List String)
  | [] => none
  | ids :: rest =>
    match ids.filter seen.contains with
    | [] => sharedIds (seen ++ ids) rest
    | shared => some (shared.mergeSort fun a b => a ≤ b)

/-- The complete input of an allocation. -/
structure Budget (α : Type) [Scalar α] where
  income : α
  /-- Essential spending. -/
  mandatory : Ledger (Category α)
  /-- Discretionary spending. -/
  flexible : Ledger (Category α)
  /-- Debts to be paid in the period. -/
  debts : Ledger (Debt α)
  /-- Savings goals. -/
  goals : Ledger (Goal α)
  income_nonneg : ¬income < 0
  /-- No id appears in two ledgers. -/
  ids_distinct : sharedIds [] [mandatory.keys, flexible.keys, debts.keys, goals.keys] = none

namespace Budget

variable {α : Type} [Scalar α]

/-- A budget with the given data, or the first check that it fails. -/
def make (income : α) (mandatory flexible : Ledger (Category α)) (debts : Ledger (Debt α))
    (goals : Ledger (Goal α)) : Except (Fault α) (Budget α) := do
  let ⟨h₁⟩ ← requireNonNegative .budgetTotalIncome income
  match h₂ : sharedIds [] [mandatory.keys, flexible.keys, debts.keys, goals.keys] with
  | some ids => throw (.repeatedIds ids)
  | none => return ⟨income, mandatory, flexible, debts, goals, h₁, h₂⟩

/-- The budget with another income, or the check that it fails. -/
def withIncome (b : Budget α) (income : α) : Except (Fault α) (Budget α) :=
  make income b.mandatory b.flexible b.debts b.goals

/-- The budget with one goal changed. -/
def modifyGoal (b : Budget α) (id : String) (f : Goal α → Goal α) : Budget α :=
  { b with
    goals := b.goals.modify id f
    ids_distinct := by rw [Ledger.keys_modify]; exact b.ids_distinct }

/-- What is committed before anything is decided: mandatory minimums and debt payments due. -/
def committed (b : Budget α) : α :=
  total (b.mandatory.values.map (·.minimum)) + total (b.debts.values.map (·.scheduledPayment))

/-- By how much the commitments exceed the income, if they do. -/
def shortfall? (b : Budget α) : Option α :=
  if b.income < b.committed then some (b.committed - b.income) else none

/-- The income left after the commitments, not below zero. -/
def surplus (b : Budget α) : α := greatest 0 (b.income - b.committed)

end Budget

end GoalBudget
