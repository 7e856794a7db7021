import GoalBudget.Allocation.Basic

/-!
# Summaries

The sums of an allocation by kind of item, and the savings rate: what goes to goals and to extra
debt payments, in percent of the income (section 10.5 of the specification).

An allocation lists all categories in one ledger. Which of them are mandatory and which flexible is
read off the budget, so a summary needs both (`Allocation.summary`). Its sum and its surplus are
computed from the four groups, and not taken from the allocation; that they agree is proved.

Without income the savings rate is zero.
-/

namespace GoalBudget

/-- The sums of an allocation. -/
structure Summary (α : Type) where
  totalIncome : α
  /-- The sum of all amounts. -/
  totalAllocated : α
  surplus : α
  mandatory : α
  flexible : α
  debts : α
  goals : α
  /-- What serves the future, in percent of the income. -/
  savingsRate : α
  deriving Repr

namespace Allocation

variable {α : Type} [Scalar α]

/-- What is paid to debts beyond the required payments. -/
def debtExtra (a : Allocation α) : α := total (a.debts.values.map (·.extra))

/-- The sum over the categories that are listed in a ledger. -/
def sumWithin (a : Allocation α) (listed : Ledger (Category α)) : α :=
  total (a.categories.filter fun key _ => listed.contains key).values

/-- The sums of an allocation of a budget. -/
def summary (a : Allocation α) (b : Budget α) : Summary α :=
  let mandatory := a.sumWithin b.mandatory
  let flexible := a.sumWithin b.flexible
  let debts := total (a.debts.values.map (·.total))
  let goals := total a.goals.values
  let sum := mandatory + flexible + debts + goals
  { totalIncome := b.income
    totalAllocated := sum
    surplus := b.income - sum
    mandatory, flexible, debts, goals
    savingsRate := if 0 < b.income then 100 * (goals + a.debtExtra) / b.income else 0 }

end Allocation

end GoalBudget
