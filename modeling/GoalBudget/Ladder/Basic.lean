import GoalBudget.Strategy.GoalProgram
import GoalBudget.Strategy.Priority

/-!
# Ladders

A goal offers a ladder of levels, each an amount to be reached with a reward for reaching it. A
result says which level every goal reached and what rewards were collected. This is the second of
the two satisficing strategies in section 4.4 of the specification, where satisfaction is not a
curve but a choice among a few levels.

Levels are sorted by amount when a goal is made, and levels of one amount keep their order
(`sortLevels`); a goal without levels is refused (`LadderGoal.checkLevels`). The level reached is
the last one whose amount is reached, with a hundredth of tolerance, whatever the rewards are
(`LadderGoal.reachedIndex?`).

The reward of a goal that reached nothing is not counted, and the part collected is zero where
nothing can be collected. A result counts as feasible if the income is respected; the bounds of the
variables are not looked at again.
-/

namespace GoalBudget

/-- One rung of a ladder. -/
structure Level (α : Type) where
  /-- The amount to be reached. -/
  value : α
  /-- The reward for reaching it. -/
  reward : α
  /-- The name of the level. -/
  label : String
  deriving Repr

/-- Levels by ascending amount; equal amounts keep their order. -/
def sortLevels {α : Type} [Scalar α] (levels : List (Level α)) : List (Level α) :=
  byAscending (·.value) levels

/-- A goal with a ladder of levels. -/
structure LadderGoal (α : Type) where
  id : String
  /-- The position of the variable it scores. -/
  index : Nat
  /-- The levels by ascending amount. -/
  levels : List (Level α)
  /-- Smaller is more important. -/
  priority : Int
  /-- The order within the tier; larger comes first. -/
  weight : α
  description : String

instance {α : Type} : Scores (LadderGoal α) := ⟨LadderGoal.id, LadderGoal.index⟩

/-- A goal program with ladders. -/
abbrev LadderProgram (α : Type) [Scalar α] := GoalProgram α (LadderGoal α)

/-- What a goal program with ladders leads to. -/
structure LadderResult (α : Type) where
  variableValues : Ledger α
  /-- The level that every goal reached. -/
  goalLevels : Ledger String
  goalValues : Ledger α
  totalReward : α
  /-- The rewards of the highest levels. -/
  maxReward : α
  /-- The part of them that was collected. -/
  rewardRatio : α
  /-- The goals that reached some level. -/
  achieved : List String
  /-- The goals that reached their highest level. -/
  ideal : List String
  iterations : Nat
  /-- How the amounts were found. -/
  method : Method
  /-- Whether the income is respected. -/
  isFeasible : Bool

/-- Amounts within this much of a level count as reaching it. -/
def levelTolerance {α : Type} [Scalar α] : α := 0.01

/-- The name of having reached no level. -/
def noLevelName : String := "none"

namespace LadderGoal

variable {α : Type} [Scalar α]

/-- The levels of a goal in order, or the fault that there are none. -/
def checkLevels (goal : String) (levels : List (Level α)) : Except (Fault α) (List (Level α)) :=
  if levels.isEmpty then .error (.noLevels goal) else .ok (sortLevels levels)

/-- The position of the highest level that an amount reaches. -/
def reachedIndex? (g : LadderGoal α) (x : α) : Option Nat :=
  g.levels.zipIdx.foldl
    (fun best l => if l.1.value - levelTolerance ≤ x then some l.2 else best) none

/-- The highest level that an amount reaches. -/
def reached? (g : LadderGoal α) (x : α) : Option (Level α) :=
  (g.reachedIndex? x).bind fun i => g.levels[i]?

/-- Whether an amount reaches the highest level. -/
def isIdealAt (g : LadderGoal α) (x : α) : Bool :=
  match g.reachedIndex? x with
  | some i => i + 1 == g.levels.length
  | none => false

/-- The reward of the highest level. -/
def topReward (g : LadderGoal α) : α :=
  match g.levels.getLast? with
  | some l => l.reward
  | none => 0

end LadderGoal

namespace LadderProgram

variable {α : Type} [Scalar α]

/-- A goal with the amount of its variable. -/
structure Standing (α : Type) where
  goal : LadderGoal α
  value : α

/-- The level a goal reached, if any. -/
def Standing.level? (s : Standing α) : Option (Level α) := s.goal.reached? s.value

/-- The name of the level a goal reached. -/
def Standing.label (s : Standing α) : String := s.level?.elim noLevelName (·.label)

/-- The result that a solution amounts to. -/
def summarize (p : LadderProgram α) (solution : List α) (method : Method) (iterations : Nat) :
    Except (Fault α) (LadderResult α) := do
  let standings : List (Standing α) ← p.goals.mapM fun g => do
    return ⟨g, ← amountAt solution g.index⟩
  let reward := total ((standings.filterMap Standing.level?).map (·.reward))
  let best := total (p.goals.map LadderGoal.topReward)
  return {
    variableValues := p.valuesById solution
    goalLevels := Ledger.ofList (standings.map fun s => (s.goal.id, s.label))
    goalValues := Ledger.ofList (standings.map fun s => (s.goal.id, s.value))
    totalReward := reward
    maxReward := best
    rewardRatio := if 0 < best then reward / best else 0
    achieved := (standings.filter (·.level?.isSome)).map (·.goal.id)
    ideal := (standings.filter fun s => s.goal.isIdealAt s.value).map (·.goal.id)
    iterations, method
    isFeasible := total solution ≤ p.income + deviationTolerance }

end LadderProgram

end GoalBudget
