import GoalBudget.Fuzzy.Encoding
import GoalBudget.Fuzzy.Greedy

/-!
# Solving fuzzy goal programs

A program with a backend at hand is encoded and handed to it. If there is none, or it stops without
a solution, the greedy run takes over. The objective is the sum of the satisfactions, each times the
weight of its goal and the multiplier of its tier, and a small reward for every unit spent on a
goal.

Several checks come first, in this order: a program without variables has the empty result, lower
bounds that the income does not cover are a fault (section 7 of the specification), and without
income all amounts are zero. Only then is a backend asked for, with as many columns as the encoding
is wide.

The reward is `10⁻⁵` times the weight, per income. It is there so that of two allocations with the
same satisfaction the one that spends more is chosen, and it is part of the objective: the backend
may trade satisfaction for it where weights are far apart.

Whatever the backend's solution is, only its first entries are looked at, one for every variable,
and they are held within their bounds before they are scored.

`FuzzyProgram.session?` is the record of what the backend was told. It repeats the path of
`FuzzyProgram.solve` up to the run, so that it can be said of a run that fails as well.
-/

namespace GoalBudget.FuzzyProgram

variable {α : Type} [Scalar α]

/-- A goal's weight times the multiplier of its tier: a power of a hundred. -/
def scaledWeight (p : FuzzyProgram α) (g : FuzzyGoal α) : Except (Fault α) α := do
  let scale ← priorityScale g.priority 100 3 (leastImportant (p.goals.map (·.priority)))
  return g.weight * scale

/-- The goals with their scaled weights. -/
def scaledGoals (p : FuzzyProgram α) : Except (Fault α) (List (FuzzyGoal α × α)) :=
  p.goals.mapM fun g => do return (g, ← p.scaledWeight g)

/-- The encoding of all curves, with the income as the bound on every variable. -/
def encode (p : FuzzyProgram α) (goals : List (FuzzyGoal α × α)) : Encoding α :=
  goals.foldl (fun e g => e.addGoal g.1.id g.1.index g.1.curve g.2)
    (.blank p.vars.length p.income)

/-- The objective: the membership columns, and a reward of `10⁻⁵` per satisfaction and income
for what is spent. -/
def objective (p : FuzzyProgram α) (goals : List (FuzzyGoal α × α)) (e : Encoding α) : List α :=
  goals.foldl (fun cells g => cells.modify g.1.index (· + 1e-5 * g.2 / p.income))
    (sparse e.width e.objectiveTerms)

/-- Everything that is stated to a backend. -/
def calls (p : FuzzyProgram α) (goals : List (FuzzyGoal α × α)) (e : Encoding α) :
    List (Call α) :=
  [.objective (p.objective goals e) true] ++ p.boundCalls ++ [p.budgetCall e.width] ++ e.calls

/-- The result of the greedy run. -/
def solveGreedily (p : FuzzyProgram α) : Except (Fault α) (FuzzyResult α) := do
  let (rounds, f) ← p.greedy
  p.summarize f.amounts .greedy rounds

/-- The result, preferably found by a backend. -/
def solve (p : FuzzyProgram α) (backends : Nat → Option (Backend α)) :
    Except (Fault α) (FuzzyResult α) := do
  if p.vars.isEmpty then p.summarize [] .none 0
  else
    checkMinimums p.vars p.income
    if p.income ≤ 0 then p.summarize (p.vars.map fun _ => 0) .none 0
    else
      let goals ← p.scaledGoals
      let e := p.encode goals
      match backends e.width with
      | none => p.solveGreedily
      | some b =>
        match ← b.attempt (p.calls goals e) with
        | none => p.solveGreedily
        | some solution => p.summarize (p.clampSolution solution) .milp 1

/-- The session with a backend while solving, if there is one. -/
def session? (p : FuzzyProgram α) (backends : Nat → Option (Backend α)) :
    Option (Session α) := do
  guard (!p.vars.isEmpty)
  guard (checkMinimums p.vars p.income).isOk
  guard ¬p.income ≤ 0
  let goals ← p.scaledGoals.toOption
  let e := p.encode goals
  let b ← backends e.width
  return ⟨e.width, (b.run (p.calls goals e)).trace⟩

end GoalBudget.FuzzyProgram
