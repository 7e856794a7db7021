import GoalBudget.Allocation.Allocator

/-!
# Changes of priority weights

What a goal gets when its priority weight is moved ten steps up or down, with everything else as it
is (the third part of the sensitivity analysis in section 10.5 of the specification). The emergency
fund is left alone.

Weights stay within the range from 1 to 99 when they are moved (`raisedWeight`, `loweredWeight`).
Each move is an allocation of its own, of the budget with this one goal changed, so two allocations
are made for every goal (`Allocator.weightImpact`). The goals are gone through by ascending id, and
the first fault ends it.

How strongly a goal reacts is the difference of the two amounts in terms of the current one; a goal
without anything does not react.
-/

namespace GoalBudget

/-- How strongly something reacts. -/
inductive Grade where
  | low | medium | high
  deriving DecidableEq, Repr

/-- The word for a grade. -/
def Grade.name : Grade → String
  | low => "low"
  | medium => "medium"
  | high => "high"

/-- What a goal gets under other priority weights. -/
structure WeightImpact (α : Type) where
  id : String
  name : String
  priority : GoalPriority
  /-- What it gets. -/
  current : α
  /-- What it would get with a more important weight. -/
  ifHigher : α
  /-- What it would get with a less important weight. -/
  ifLower : α
  deriving Repr

variable {α : Type} [Scalar α]

/-- How strongly a goal reacts, by the difference of the two amounts in terms of the current
one. -/
def WeightImpact.sensitivity (i : WeightImpact α) : Grade :=
  if 0 < i.current then
    let ratio := (i.ifHigher - i.ifLower) / i.current
    if 0.5 < ratio then .high else if 0.2 < ratio then .medium else .low
  else .low

/-- A weight ten steps more important, but not beyond one. -/
def raisedWeight (weight : Int) : Int := max 1 (weight - 10)

/-- A weight ten steps less important, but not beyond 99. -/
def loweredWeight (weight : Int) : Int := min 99 (weight + 10)

theorem raisedWeight_nonneg (weight : Int) : 0 ≤ raisedWeight weight := by
  unfold raisedWeight
  omega

theorem loweredWeight_nonneg {weight : Int} (h : 0 ≤ weight) : 0 ≤ loweredWeight weight := by
  unfold loweredWeight
  omega

/-- The budget with one goal made more important. -/
def Budget.raiseGoal (b : Budget α) (id : String) : Budget α :=
  b.modifyGoal id fun g => g.withWeight (raisedWeight g.priorityWeight) (raisedWeight_nonneg _)

/-- The budget with one goal made less important. -/
def Budget.lowerGoal (b : Budget α) (id : String) : Budget α :=
  b.modifyGoal id fun g =>
    g.withWeight (loweredWeight g.priorityWeight) (loweredWeight_nonneg g.priorityWeight_nonneg)

/-- What a goal of a budget gets. -/
def Allocator.goalAmount (a : Allocator α) (b : Budget α) (s : Scenario α) (id : String) :
    Except (Fault α) α := do
  return (← a.solve b s).goals.getD id 0

/-- The impact of other priority weights on one goal. -/
def Allocator.weightImpact (a : Allocator α) (b : Budget α) (s : Scenario α)
    (before : Allocation α) (id : String) (g : Goal α) : Except (Fault α) (WeightImpact α) := do
  let ifHigher ← a.goalAmount (b.raiseGoal id) s id
  let ifLower ← a.goalAmount (b.lowerGoal id) s id
  return ⟨id, g.name, g.priority, before.goals.getD id 0, ifHigher, ifLower⟩

/-- The goals whose priority weight matters, by ascending id. -/
def Budget.weightedGoals (b : Budget α) : List (String × Goal α) :=
  b.goals.sorted.entries.filter fun e => !e.2.isEmergency

/-- The impact of other priority weights on every goal. -/
def Allocator.weightImpacts (a : Allocator α) (b : Budget α) (s : Scenario α)
    (before : Allocation α) : Except (Fault α) (List (WeightImpact α)) :=
  b.weightedGoals.mapM fun e => a.weightImpact b s before e.1 e.2

end GoalBudget
