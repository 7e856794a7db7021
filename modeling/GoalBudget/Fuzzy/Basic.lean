import GoalBudget.Curve.Degree
import GoalBudget.Strategy.GoalProgram
import GoalBudget.Strategy.Priority

/-!
# Fuzzy goal programs

Every goal has a curve that says how satisfied it is with the amount of its variable. A result lists
the amounts, the satisfactions and a verdict on every goal, and sums up the satisfactions in three
ways: their sum, their mean, and their mean by weight. A mean over nothing is zero.

This is the first of the two satisficing strategies in section 4.4 of the specification; its curves
are those of section 4.1. The program itself, its variables, its income and its goals with
positions, is a `GoalProgram` like that of the other strategies, so the rules for adding items and
for the budget row are shared.

A goal is scored after the solution is there, and from its curve, not from the columns that the
encoding has for it (`FuzzyProgram.score`). The only fault that can come up then is that the
solution is too short.
-/

namespace GoalBudget

/-- A goal that is satisfied by degrees. -/
structure FuzzyGoal (α : Type) where
  id : String
  /-- The position of the variable it scores. -/
  index : Nat
  /-- The satisfaction with every amount. -/
  curve : Curve α
  /-- Smaller is more important. -/
  priority : Int
  /-- The multiplier within the tier. -/
  weight : α
  description : String

instance {α : Type} : Scores (FuzzyGoal α) := ⟨FuzzyGoal.id, FuzzyGoal.index⟩

/-- A goal program with satisfaction curves. -/
abbrev FuzzyProgram (α : Type) [Scalar α] := GoalProgram α (FuzzyGoal α)

/-- What a fuzzy goal program leads to. -/
structure FuzzyResult (α : Type) where
  variableValues : Ledger α
  goalMemberships : Ledger α
  goalValues : Ledger α
  totalMembership : α
  /-- The mean satisfaction. -/
  averageMembership : α
  /-- The mean satisfaction by weight. -/
  weightedMembership : α
  achieved : List String
  /-- The goals served in part. -/
  partly : List String
  /-- The goals hardly served. -/
  unachieved : List String
  /-- How many rounds were made. -/
  iterations : Nat
  /-- How the amounts were found. -/
  method : Method
  /-- Whether bounds and income are respected. -/
  isFeasible : Bool

/-- A goal with the amount of its variable and its satisfaction. -/
structure ScoredGoal (α : Type) where
  goal : FuzzyGoal α
  value : α
  degree : α

namespace FuzzyProgram

variable {α : Type} [Scalar α]

/-- A goal's satisfaction with a solution. -/
def score (solution : List α) (goal : FuzzyGoal α) : Except (Fault α) (ScoredGoal α) := do
  let value ← amountAt solution goal.index
  return ⟨goal, value, ← goal.curve.degree? value⟩

/-- The goals with a given verdict. -/
def withVerdict (verdict : Verdict) (scored : List (ScoredGoal α)) : List String :=
  (scored.filter fun s => Verdict.ofDegree s.degree == verdict).map (·.goal.id)

/-- A quotient, or zero where the divisor is not positive. -/
def ratio (a b : α) : α := if 0 < b then a / b else 0

/-- The result that a solution amounts to. -/
def summarize (p : FuzzyProgram α) (solution : List α) (method : Method) (iterations : Nat) :
    Except (Fault α) (FuzzyResult α) := do
  let scored ← p.goals.mapM (score solution)
  let memberships := Ledger.ofList (scored.map fun s => (s.goal.id, s.degree))
  let sum := total memberships.values
  return {
    variableValues := p.valuesById solution
    goalMemberships := memberships
    goalValues := Ledger.ofList (scored.map fun s => (s.goal.id, s.value))
    totalMembership := sum
    averageMembership := if p.goals.isEmpty then 0 else sum / (p.goals.length : α)
    weightedMembership :=
      ratio (total (scored.map fun s => s.degree * s.goal.weight))
        (total (scored.map (·.goal.weight)))
    achieved := withVerdict .achieved scored
    partly := withVerdict .partly scored
    unachieved := withVerdict .unachieved scored
    iterations, method
    isFeasible := nearlyFeasible p.vars p.income solution }

end FuzzyProgram

end GoalBudget
