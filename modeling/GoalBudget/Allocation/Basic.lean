import GoalBudget.Budget.Basic

/-!
# Allocations

An allocation lists what every category, goal and debt gets. Nothing in it is negative, but for a
billionth of leeway (section 3 of the specification). It carries a summary: the sum of all amounts,
the rest of the income, a score from 0 to 100, and the goals that count as achieved.

The check is made on the finished allocation (`Allocation.check`). Categories and goals are looked
at in one ledger, in which an id that is in both counts once, with the amount of the goal; payments
to debts are looked at after them. The first negative amount is the fault, with its id and the
amount in the message.

A payment keeps apart what is due as a minimum and what goes beyond (`Payment`). The two make up the
total except for a debt that is paid less than its minimum.
-/

namespace GoalBudget

/-- What a debt gets. -/
structure Payment (α : Type) where
  /-- All of it. -/
  total : α
  minimum : α
  /-- What goes beyond the required payment. -/
  extra : α
  deriving Repr

/-- What every item gets, and a summary. -/
structure Allocation (α : Type) where
  categories : Ledger α
  goals : Ledger α
  debts : Ledger (Payment α)
  /-- The sum of all amounts. -/
  allocated : α
  surplus : α
  /-- How well the goals are served, from 0 to 100. -/
  score : α
  /-- How many steps the strategy made. -/
  iterations : Int
  achieved : List String
  unachieved : List String
  strategy : String

namespace Allocation

variable {α : Type} [Scalar α]

/-- Whether an amount is negative beyond the leeway. -/
def isNegative (x : α) : Bool := x < -1e-9

/-- The allocation, if nothing in it is negative. Where a category and a goal share an id, the
amount of the goal counts. -/
def check (a : Allocation α) : Except (Fault α) (Allocation α) :=
  match (a.categories.merge a.goals).entries.find? fun e => isNegative e.2 with
  | some (id, amount) => .error (.negativeAllocation id amount)
  | none =>
    match a.debts.entries.find? fun e => isNegative e.2.total with
    | some (id, payment) => .error (.negativePayment id payment.total)
    | none => .ok a

end Allocation

end GoalBudget
