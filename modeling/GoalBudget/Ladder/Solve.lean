import GoalBudget.Ladder.Greedy

/-!
# Solving goal programs with ladders

The program for a backend has a binary column per level. A goal chooses at most one level, and a
level can be chosen only if the goal's variable reaches its amount. The objective is the reward of
the chosen levels, each times the multiplier of its tier, less a small cost for every unit spent.
Without a backend, or when it stops without a solution, the greedy run takes over (section 4.4 of
the specification).

The columns of the levels come behind those of the variables, goal after goal
(`LadderProgram.assignColumns`). A level that asks for nothing has a column but no row: it can
always be chosen. The multiplier of a goal is a power of a thousand, one for every tier that its
priority stands above the least important one (`LadderProgram.rungs`).

The checks before a backend is asked for are those of the other strategies, in the same order: no
variables, lower bounds, no income.

`LadderProgram.session?` is the record of what the backend was told.
-/

namespace GoalBudget.LadderProgram

variable {α : Type} [Scalar α]

/-- A goal with the columns of its levels and the multiplier of its tier. -/
structure Rungs (α : Type) where
  goal : LadderGoal α
  /-- The column of every level. -/
  columns : List Nat
  scale : α

/-- The columns of goals, from a first free one on. -/
def assignColumns (column : Nat) : List (LadderGoal α × α) → List (Rungs α)
  | [] => []
  | (g, scale) :: rest =>
    ⟨g, List.range' column g.levels.length, scale⟩ ::
      assignColumns (column + g.levels.length) rest

/-- How many columns the program for a backend has: one per variable and one per level. -/
def width (p : LadderProgram α) : Nat :=
  p.vars.length + (p.goals.flatMap (·.levels)).length

/-- The goals with columns and multipliers: powers of a thousand. -/
def rungs (p : LadderProgram α) : Except (Fault α) (List (Rungs α)) := do
  let lowest := (leastImportant (p.goals.map (·.priority))).getD 10
  let scaled ← p.goals.mapM fun g => do
    return (g, ← priorityScale g.priority 1000 10 (some lowest))
  return assignColumns p.vars.length scaled

/-- The objective: rewards for levels, and a cost of `10⁻⁶` per income for what is spent. -/
def objective (p : LadderProgram α) (rungs : List (Rungs α)) : List α :=
  List.replicate p.vars.length (-1e-6 / p.income) ++
    rungs.flatMap fun r => r.goal.levels.map fun l => l.reward * r.scale

/-- Everything that is stated about the levels of a goal in a program of `n` columns. -/
def Rungs.calls (n : Nat) (r : Rungs α) : List (Call α) :=
  ((r.goal.levels.zip r.columns).flatMap fun l =>
      .binary l.2 ::
        (if 0 < l.1.value then
          [.row ⟨sparse n [(r.goal.index, 1), (l.2, -l.1.value)], .atLeast, 0⟩]
        else [])) ++
    [.row ⟨sparse n (r.columns.map fun column => (column, 1)), .atMost, 1⟩]

/-- Everything that is stated to a backend. -/
def calls (p : LadderProgram α) : Except (Fault α) (List (Call α)) := do
  let rungs ← p.rungs
  return [.objective (p.objective rungs) true] ++ p.boundCalls ++ [p.budgetCall p.width] ++
    rungs.flatMap (Rungs.calls p.width)

/-- The result of the greedy run. -/
def solveGreedily (p : LadderProgram α) : Except (Fault α) (LadderResult α) := do
  let (steps, f) ← p.greedy
  p.summarize f.amounts .greedy steps

/-- The result, preferably found by a backend. -/
def solve (p : LadderProgram α) (backends : Nat → Option (Backend α)) :
    Except (Fault α) (LadderResult α) := do
  if p.vars.isEmpty then p.summarize [] .none 0
  else
    checkMinimums p.vars p.income
    if p.income ≤ 0 then p.summarize (p.vars.map fun _ => 0) .none 0
    else
      match backends p.width with
      | none => p.solveGreedily
      | some b =>
        match ← b.attempt (← p.calls) with
        | none => p.solveGreedily
        | some solution => p.summarize (p.clampSolution solution) .milp 1

/-- The session with a backend while solving, if there is one. Nothing happens to the backend
when the multipliers leave the range of amounts. -/
def session? (p : LadderProgram α) (backends : Nat → Option (Backend α)) :
    Option (Session α) := do
  guard (!p.vars.isEmpty)
  guard (checkMinimums p.vars p.income).isOk
  guard ¬p.income ≤ 0
  let b ← backends p.width
  return ⟨p.width, (p.calls.toOption.map fun calls => (b.run calls).trace).getD []⟩

end GoalBudget.LadderProgram
