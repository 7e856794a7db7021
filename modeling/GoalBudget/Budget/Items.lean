import GoalBudget.Fault
import GoalBudget.Number.Scalar

/-!
# The items of a budget

A budget has four kinds of items: mandatory expenses and flexible categories, which are both
categories of spending with a minimum and a maximum, debts, and savings goals. This is the
constraint model of section 3 of the specification, one type for each kind of item.

Every type carries its checks as fields, so an item that exists satisfies them. The constructors
`Category.make`, `Debt.make` and `Goal.make` test them in the order of the fields, and the first one
that fails is the fault. Tests are of the form "not below zero", which an undefined value passes.

Zero stands for nothing in three places: a maximum of zero is no maximum, a forced payment of zero
is none, and a category priority of zero is unset.
-/

namespace GoalBudget

/-- The check that a field is not negative. An undefined value passes it. -/
def requireNonNegative {α : Type} [Scalar α] (field : Field) (value : α) :
    Except (Fault α) (PLift ¬value < 0) :=
  if h : value < 0 then .error (.negative field value) else .ok ⟨h⟩

/-! ## Categories of spending -/

/-- A category of spending with bounds on its amount. -/
structure Category (α : Type) [Scalar α] where
  id : String
  minimum : α
  /-- The greatest amount; zero for none. -/
  maximum : α
  /-- Whether the spending is discretionary. -/
  isFlexible : Bool
  /-- Smaller is more important; zero for unset. -/
  priority : Int
  minimum_nonneg : ¬minimum < 0
  maximum_nonneg : ¬maximum < 0
  /-- A maximum that is set is not below the minimum. -/
  minimum_le_maximum : ¬(0 < maximum ∧ maximum < minimum)

namespace Category

variable {α : Type} [Scalar α]

/-- A category with the given data, or the first check that it fails. -/
def make (id : String) (minimum maximum : α) (isFlexible : Bool) (priority : Int) :
    Except (Fault α) (Category α) := do
  let ⟨h₁⟩ ← requireNonNegative .categoryMinimum minimum
  let ⟨h₂⟩ ← requireNonNegative .categoryMaximum maximum
  if h₃ : 0 < maximum ∧ maximum < minimum then
    throw (.maximumBelowMinimum maximum minimum id)
  else
    return ⟨id, minimum, maximum, isFlexible, priority, h₁, h₂, h₃⟩

/-- Whether the amount is fixed by its bounds. -/
def isFixed (c : Category α) : Bool := 0 < c.maximum && c.minimum == c.maximum

/-- The priority among flexible categories; unset counts as four. -/
def effectivePriority (c : Category α) : Int := if c.priority = 0 then 4 else c.priority

end Category

/-! ## Debts -/

/-- A debt that has to be paid in the period. -/
structure Debt (α : Type) [Scalar α] where
  id : String
  name : String
  minimumPayment : α
  currentBalance : α
  /-- The annual interest in percent. -/
  interestRate : α
  /-- The forced payment; zero for none. -/
  fixedPayment : α
  /-- Smaller is more important. -/
  priority : Int
  minimumPayment_nonneg : ¬minimumPayment < 0
  currentBalance_nonneg : ¬currentBalance < 0
  interestRate_nonneg : ¬interestRate < 0
  fixedPayment_nonneg : ¬fixedPayment < 0

namespace Debt

variable {α : Type} [Scalar α]

/-- A debt with the given data, or the first check that it fails. -/
def make (id name : String) (minimumPayment currentBalance interestRate fixedPayment : α)
    (priority : Int) : Except (Fault α) (Debt α) := do
  let ⟨h₁⟩ ← requireNonNegative .debtMinimumPayment minimumPayment
  let ⟨h₂⟩ ← requireNonNegative .debtCurrentBalance currentBalance
  let ⟨h₃⟩ ← requireNonNegative .debtInterestRate interestRate
  let ⟨h₄⟩ ← requireNonNegative .debtFixedPayment fixedPayment
  return ⟨id, name, minimumPayment, currentBalance, interestRate, fixedPayment, priority,
    h₁, h₂, h₃, h₄⟩

/-- Whether a payment is forced. -/
def isForced (d : Debt α) : Bool := 0 < d.fixedPayment

/-- The payment due: the forced one if there is one, else the minimum. -/
def scheduledPayment (d : Debt α) : α := if d.isForced then d.fixedPayment else d.minimumPayment

end Debt

/-! ## Savings goals -/

/-- How much a goal matters, in words. -/
inductive GoalPriority where
  | critical | high | medium | low
  deriving DecidableEq, Repr

namespace GoalPriority

/-- All priorities, the most important first. -/
def all : List GoalPriority := [critical, high, medium, low]

/-- The word for a priority. -/
def name : GoalPriority → String
  | critical => "critical"
  | high => "high"
  | medium => "medium"
  | low => "low"

/-- The priority with a given word. -/
def ofName? (name : String) : Option GoalPriority := all.find? fun p => p.name == name

end GoalPriority

/-- A savings goal. -/
structure Goal (α : Type) [Scalar α] where
  id : String
  name : String
  /-- The contribution suggested for the period. -/
  suggestedContribution : α
  /-- The amount that is still missing. -/
  remainingAmount : α
  /-- A label; `emergency` marks the emergency fund. -/
  goalType : String
  /-- The priority in words. -/
  priority : GoalPriority
  /-- The priority as a number; smaller is more important. -/
  priorityWeight : Int
  suggestedContribution_nonneg : ¬suggestedContribution < 0
  remainingAmount_nonneg : ¬remainingAmount < 0
  priorityWeight_nonneg : 0 ≤ priorityWeight

namespace Goal

variable {α : Type} [Scalar α]

/-- A goal with the given data, or the first check that it fails. -/
def make (id name : String) (suggestedContribution remainingAmount : α)
    (goalType priority : String) (priorityWeight : Int) : Except (Fault α) (Goal α) := do
  let ⟨h₁⟩ ← requireNonNegative .goalSuggestedContribution suggestedContribution
  let ⟨h₂⟩ ← requireNonNegative .goalRemainingAmount remainingAmount
  if h₃ : 0 ≤ priorityWeight then
    match GoalPriority.ofName? priority with
    | none => throw (.unknownGoalPriority priority)
    | some p =>
      return ⟨id, name, suggestedContribution, remainingAmount, goalType, p, priorityWeight,
        h₁, h₂, h₃⟩
  else throw (.negativePriorityWeight priorityWeight)

/-- Whether the goal is the emergency fund. -/
def isEmergency (g : Goal α) : Bool := g.goalType == "emergency"

/-- The goal with another priority weight. -/
def withWeight (g : Goal α) (weight : Int) (h : 0 ≤ weight) : Goal α :=
  { g with priorityWeight := weight, priorityWeight_nonneg := h }

/-- The contribution aimed at: the suggested one times a factor. -/
def target (g : Goal α) (factor : α) : α := g.suggestedContribution * factor

end Goal

end GoalBudget
