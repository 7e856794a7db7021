import GoalBudget.Strategy.GoalProgram

/-!
# Deviation goals

A goal has a target and a side: the amount of its variable shall be at least the target, at most the
target, or exactly the target. What it falls short on the wrong side is its deviation; a goal counts
as reached when that is less than a hundredth.

These are the goals of the two strategies in section 4.4 of the specification that compare
deviations and not satisfactions: in strict order of priority, and as the weighted sum of a linear
program. The same type serves both. What a weight means is up to the strategy: the order within the
tier, or the penalty per unit.

The names of sides are part of the interface (`Side.ofName`), and an unknown one is a fault with the
name in it.

A result is made from a solution by going through the goals once; a solution that is too short for
some goal is a fault and not a deviation (`DeviationProgram.miss`). The status is that of the
solver, and for goals in strict order always that of an optimum.
-/

namespace GoalBudget

/-- On which side of its target an amount is welcome. -/
inductive Side where
  /-- Falling short is unwanted. -/
  | atLeast
  /-- Going over is unwanted. -/
  | atMost
  /-- Both are unwanted. -/
  | exactly
  deriving DecidableEq, Repr

namespace Side

/-- All sides. -/
def all : List Side := [atLeast, atMost, exactly]

/-- The name of a side. -/
def name : Side → String
  | atLeast => "at_least"
  | atMost => "at_most"
  | exactly => "exactly"

/-- The side with a given name, or the fault that there is none. -/
def ofName {α : Type} (name : String) : Except (Fault α) Side :=
  match all.find? fun s => s.name == name with
  | some s => .ok s
  | none => .error (.unknownGoalType name)

end Side

/-- A goal with a target. -/
structure DeviationGoal (α : Type) where
  id : String
  /-- The position of the variable it scores. -/
  index : Nat
  /-- The amount aimed at. -/
  target : α
  /-- On which side of the target an amount is welcome. -/
  side : Side
  /-- Smaller is more important. -/
  priority : Int
  /-- The order within the tier, or the penalty per unit. -/
  weight : α
  description : String

instance {α : Type} : Scores (DeviationGoal α) := ⟨DeviationGoal.id, DeviationGoal.index⟩

/-- A goal program with targets. -/
abbrev DeviationProgram (α : Type) [Scalar α] := GoalProgram α (DeviationGoal α)

/-- What a goal program with targets leads to. -/
structure DeviationResult (α : Type) where
  status : Status
  variableValues : Ledger α
  goalDeviations : Ledger α
  achieved : List String
  unachieved : List String
  totalDeviation : α
  iterations : Nat
  /-- Whether bounds and income are respected. -/
  isFeasible : Bool

section
variable {α : Type} [Scalar α]

/-- What an amount falls short of a target on the wrong side. -/
def Side.deviation (side : Side) (target x : α) : α :=
  match side with
  | .atLeast => greatest 0 (target - x)
  | .atMost => greatest 0 (x - target)
  | .exactly => magnitude (x - target)

/-- The deviation of a goal with an amount. -/
def DeviationGoal.deviation (g : DeviationGoal α) (x : α) : α := g.side.deviation g.target x

namespace DeviationProgram

/-- A goal with its deviation. -/
structure Miss (α : Type) where
  id : String
  deviation : α

/-- The deviation of a goal with a solution. -/
def miss (solution : List α) (g : DeviationGoal α) : Except (Fault α) (Miss α) :=
  match solution[g.index]? with
  | some x => .ok ⟨g.id, g.deviation x⟩
  | none => .error .positionOutOfRange

/-- Whether a goal counts as reached. -/
def Miss.isReached (m : Miss α) : Bool := m.deviation < deviationTolerance

/-- The result that a solution amounts to. -/
def summarize (p : DeviationProgram α) (solution : List α) (status : Status) (iterations : Nat) :
    Except (Fault α) (DeviationResult α) := do
  let misses ← p.goals.mapM (miss solution)
  let deviations := Ledger.ofList (misses.map fun m => (m.id, m.deviation))
  return {
    status
    variableValues := p.valuesById solution
    goalDeviations := deviations
    achieved := (misses.filter Miss.isReached).map (·.id)
    unachieved := (misses.filter (!·.isReached)).map (·.id)
    totalDeviation := total deviations.values
    iterations
    isFeasible := nearlyFeasible p.vars p.income solution }

end DeviationProgram

end

end GoalBudget
