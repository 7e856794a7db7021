import GoalBudget.Deviation.Basic
import GoalBudget.Program.Command
import GoalBudget.Simplex.Solver
import GoalBudget.Strategy.Priority

/-!
# Minimizing deviations

A program of goals with targets is solved in one of two ways, both of section 4.4 of the
specification.

* In strict order (`solvePreemptive`). Tier by tier and by descending weight, every goal moves its
  variable to its target as far as money and bounds allow. A tier spends only what the tiers before
  left over, and the amounts at its start are floors below which the tier does not lower anything.
* As a linear program (`solveLinear`). Every goal gets two columns for what its variable `x` falls
  short of the target and goes above it, `x + below - above = target`. The objective is the
  weighted sum of the unwanted ones. Columns come in the order: variables, what is below, what is
  above.

Both refuse a program whose lower bounds exceed the income by more than the tolerance. The linear
program has no second way to a result: a solver that ends without a best solution is a fault.
-/

namespace GoalBudget

variable {α : Type} [Scalar α]

/-! ## Strict order -/

namespace DeviationProgram

/-- One goal served: its variable raised towards the target, or lowered towards it but not
below its floor. -/
def serve (p : DeviationProgram α) (floors : List α) (f : Funds α) (g : DeviationGoal α) :
    Funds α :=
  let current := f.amount g.index
  if g.side ≠ .atMost ∧ current < g.target then
    let headroom := (p.vars[g.index]?.map (·.headroom current)).getD .unbounded
    let amount := headroom.hold (least (g.target - current) f.left)
    if 0 < amount then f.give g.index amount else f
  else if g.side ≠ .atLeast ∧ g.target < current then
    let reduction := current - greatest g.target (floors.getD g.index 0)
    if 0 < reduction then
      ⟨f.amounts.modify g.index (· - reduction), f.left + reduction⟩
    else f
  else f

/-- One tier served, by descending weight, with the amounts before it as floors. -/
def serveTier (p : DeviationProgram α) (f : Funds α) (tier : List (DeviationGoal α)) : Funds α :=
  (byDescending (·.weight) tier).foldl (p.serve f.amounts) f

/-- All tiers served, from the lower bounds. -/
def runPreemptive (p : DeviationProgram α) : Except (Fault α) (Funds α) := do
  let (amounts, left) ← startAtMinimums p.vars p.income
  return (tiers (·.priority) p.goals).foldl (fun f tier => p.serveTier f tier.2) ⟨amounts, left⟩

/-- The result of serving the goals in strict order. Every goal is one step. -/
def solvePreemptive (p : DeviationProgram α) : Except (Fault α) (DeviationResult α) := do
  let f ← p.runPreemptive
  p.summarize f.amounts .optimal p.goals.length

end DeviationProgram

/-! ## One linear program -/

/-- A solver of linear programs by name, for a number of columns. The command is there or not. -/
def lpBackend (kind : String) (command : Option (SparseProgram α → Option (Outcome α)))
    (columns : Nat) : Except (Fault α) (Backend α) :=
  if kind = "simplex" then .ok (Simplex.backend columns)
  else if kind = "pulp" then
    match command with
    | some run => .ok (Command.backend columns run)
    | none => .error (.commandMissing Command.defaultName)
  else .error (.unknownLpBackend kind)

namespace DeviationProgram

/-- The number of columns of the linear program. -/
def width (p : DeviationProgram α) : Nat := p.vars.length + 2 * p.goals.length

/-- The penalties: what is below costs unless the goal is "at most", what is above unless it is
"at least". -/
def penalties (p : DeviationProgram α) : List α :=
  p.vars.map (fun _ => 0) ++
    p.goals.map (fun g => if g.side = .atMost then 0 else 0 + g.weight) ++
    p.goals.map (fun g => if g.side = .atLeast then 0 else 0 + g.weight)

/-- Everything that is stated about the goal at a position. -/
def goalCalls (p : DeviationProgram α) (entry : DeviationGoal α × Nat) : List (Call α) :=
  let g := entry.1
  let below := p.vars.length + entry.2
  let above := p.vars.length + p.goals.length + entry.2
  [ .bounds below 0 (.upTo (greatest g.target p.income)),
    .bounds above 0 (.upTo p.income),
    .row ⟨sparse p.width [(g.index, 1), (below, 1), (above, -1)], .equal, g.target⟩ ]

/-- Everything that is stated to a solver. -/
def linearCalls (p : DeviationProgram α) : List (Call α) :=
  [.objective p.penalties false] ++
    (p.vars.zipIdx.map fun v =>
      .bounds v.2 v.1.minimum (.upTo (v.1.upperBound p.income))) ++
    p.goals.zipIdx.flatMap p.goalCalls ++
    [.row ⟨p.vars.map (fun _ => 1) ++ List.replicate (2 * p.goals.length) 0, .atMost,
      p.income⟩]

/-- The result that minimizes the weighted deviations, by a solver made for the number of
columns. A solver that ends without a solution is a fault. -/
def solveLinear (p : DeviationProgram α) (backend : Nat → Except (Fault α) (Backend α)) :
    Except (Fault α) (DeviationResult α) := do
  if p.vars.isEmpty then p.summarize [] .optimal 0
  else
    checkMinimums p.vars p.income
    let b ← backend p.width
    let answer ← (b.run p.linearCalls).answer
    if answer.status = .optimal then
      p.summarize (answer.solution.take p.vars.length) answer.status answer.iterations
    else throw (.stopped answer.status)

/-- The program that a command is handed while solving, if it comes to that. -/
def handedOver? (p : DeviationProgram α) : Option (SparseProgram α) :=
  if p.vars.isEmpty || !(checkMinimums p.vars p.income).isOk then none
  else some (Command.afterCalls p.width p.linearCalls).handed

end DeviationProgram

end GoalBudget
