import GoalBudget.Bucket.Basic
import GoalBudget.Deviation.OfBudget

/-!
# Buckets of budgets

The four buckets that the surplus of a budget is shared out to, with their items (the second phase
of the hybrid strategy in section 4.4 of the specification): savings goals in the bucket of the
emergency fund or the one of the goals, debts with room for an extra payment, and flexible
categories with a target above their minimum.

The shares are those of the scenario (`Hybrid.bucket`). A bucket without items is made all the same,
and its share stays unspent. The buckets come in a fixed order, and the items of each by ascending
id before they are sorted by priority.

The levels of a goal are fractions of its target, which differ by priority class
(`Hybrid.goalSteps`). Those of a debt are fractions of ten times the share for extra payments, as a
share of the minimum payment, and of no more than the balance leaves. Those of a flexible category
start with a level that asks for nothing.
-/

namespace GoalBudget.Hybrid

variable {α : Type} [Scalar α]

/-- A ladder of fractions of a target with rewards. -/
def ladder (target scale : α) (steps : List (α × α × String)) : List (Level α) :=
  steps.map fun s => ⟨target * s.1, s.2.1 * scale, s.2.2⟩

/-- The fractions and rewards of a ladder with three levels. -/
def threeSteps (f₁ r₁ f₂ r₂ r₃ : α) : List (α × α × String) :=
  [(f₁, r₁, "minimum"), (f₂, r₂, "satisfactory"), (1, r₃, "ideal")]

/-- The fractions and rewards of the emergency fund. -/
def emergencySteps : List (α × α × String) := threeSteps 0.5 40 0.8 75 100

/-- The fractions and rewards of the other goals. -/
def goalSteps : GoalPriority → List (α × α × String)
  | .critical | .high => threeSteps 0.3 30 0.7 65 100
  | .medium => threeSteps 0.3 25 0.6 55 100
  | .low => threeSteps 0.2 20 0.5 50 100

/-- The item of a savings goal, if it has a target. -/
def goalItem (factor : α) (key : String) (g : Goal α) :
    Except (Fault α) (Option (BucketItem α)) := do
  let target := g.target factor
  if target ≤ 0 then return none
  let weight ← ofWhole (100 - g.priorityWeight)
  let steps := if g.isEmergency then emergencySteps else goalSteps g.priority
  return some (.fresh key g.name .goal g.priorityWeight weight (ladder target 1 steps))

/-- The items of the savings goals that are the emergency fund, or of the others. -/
def goalItems (b : Budget α) (factor : α) (emergency : Bool) :
    Except (Fault α) (List (BucketItem α)) := do
  let chosen := b.goals.sorted.entries.filter fun e => e.2.isEmergency == emergency
  let items ← chosen.mapM fun e => goalItem factor e.1 e.2
  return items.filterMap id

/-- The reward for an extra payment by the interest rate of the debt. -/
def debtReward (interestRate : α) : α :=
  if 20 ≤ interestRate then 80 else if 10 ≤ interestRate then 65 else 50

/-- The item of a debt, if there is room for an extra payment. -/
def debtItem (share : α) (key : String) (d : Debt α) : Option (BucketItem α) :=
  let target :=
    least (d.minimumPayment * share * 10) (d.currentBalance - d.minimumPayment)
  if d.isForced || target ≤ 0 then none
  else
    some (.fresh key d.name .debt d.priority (d.interestRate / 10)
      (ladder target (debtReward d.interestRate) (threeSteps 0.3 0.4 0.7 0.75 1)))

/-- The item of a flexible category, if its target is above its minimum. -/
def flexibleItem (level : α) (key : String) (c : Category α) : Option (BucketItem α) :=
  let extra := c.targetAt level - c.minimum
  if extra ≤ 0 then none
  else
    some (.fresh key key .category c.effectivePriority 1
      [⟨0, 0, "minimum"⟩, ⟨extra * 0.5, 40, "moderate"⟩, ⟨extra, 70, "target"⟩])

/-- A bucket that has not been spent. -/
def bucket (purpose : Purpose) (percent surplus : α) (items : List (BucketItem α)) : Bucket α :=
  ⟨purpose, percent, surplus * percent, 0, 0, items⟩

/-- The buckets of a surplus. -/
def buckets (b : Budget α) (s : Scenario α) (surplus : α) : Except (Fault α) (List (Bucket α)) := do
  let emergency ← goalItems b s.goalFactor true
  let goals ← goalItems b s.goalFactor false
  let debts := b.debts.sorted.entries.filterMap fun e => debtItem s.shares.debtExtra e.1 e.2
  let flexible := b.flexible.sorted.entries.filterMap fun e =>
    flexibleItem s.spendingLevel e.1 e.2
  return [
    bucket .emergency s.shares.emergencyFund surplus emergency,
    bucket .debtExtra s.shares.debtExtra surplus debts,
    bucket .goals s.shares.goals surplus goals,
    bucket .flexible s.shares.flexible surplus flexible ]

end GoalBudget.Hybrid
