import GoalBudget.Fuzzy.Basic

/-!
# Fuzzy goal programs by greedy steps

Without a backend the income is spent in small steps (section 4.4 of the specification). Every
variable starts at its lower bound. Then, in this order:

* tier by tier, the goals of a tier climb their curves together, up to 500 rounds with coarse steps
  and then up to 100 with finer ones, each step shared by what it gains (`FuzzyProgram.climbTier`);
* what is left goes to the goals that gain most per unit, each time by the whole step that completes
  the goal (`FuzzyProgram.spendOnGoals`);
* then to categories in proportion to what they can use, a fiftieth of what is left at a time
  (`FuzzyProgram.spendOnCategories`);
* last to any variable that can take it without losing satisfaction
  (`FuzzyProgram.spendOnHeadroom`).

A round of a climb asks all goals of the tier what they gain before any of them gets a share, and
the shares are given in descending order of the gain per unit, the earlier goal first where two are
equal. Shares of a cent or less are not given, and gains of a thousandth or less do not start a
climb (`minStep`, `minGain`). A round in which nobody moved is the last one, and counts.

The size of a step is taken once for each climb, from what is left as the climb begins, and not
again in each round.
-/

namespace GoalBudget

/-- Steps that are not larger than this are not made. -/
def minStep {α : Type} [Scalar α] : α := 0.01

/-- A gain in satisfaction that is not larger than this does not start a climb. -/
def minGain {α : Type} [Scalar α] : α := 0.001

/-- A goal that can use a step, with what it gains by it. -/
structure Offer (α : Type) where
  goal : FuzzyGoal α
  /-- The step it can take. -/
  step : α
  /-- The weighted gain in satisfaction. -/
  gain : α
  /-- The gain per unit of the step. -/
  ratio : α

namespace FuzzyProgram

variable {α : Type} [Scalar α]

/-- How much the variable at a position can still take. -/
def headroomAt (p : FuzzyProgram α) (f : Funds α) (i : Nat) : Limit α :=
  match p.vars[i]? with
  | some v => v.headroom (f.amount i)
  | none => .unbounded

/-- The weighted gain of a goal from a step. -/
def gainOf (goal : FuzzyGoal α) (current step : α) : Except (Fault α) α := do
  let after ← goal.curve.degree? (current + step)
  let before ← goal.curve.degree? current
  return (after - before) * goal.weight

/-- What a goal offers for a step of at most `increment`, if it is worth taking. -/
def offer? (p : FuzzyProgram α) (f : Funds α) (increment : α) (goal : FuzzyGoal α) :
    Except (Fault α) (Option (Offer α)) := do
  let step := (p.headroomAt f goal.index).hold (least increment f.left)
  if step ≤ minStep then return none
  let gain ← gainOf goal (f.amount goal.index) step
  if minGain < gain then return some ⟨goal, step, gain, ← quotient gain step⟩ else return none

/-- One goal's share of a step: in proportion to its gain, as far as money and bounds allow.
Also whether the share was worth giving. -/
def takeShare (p : FuzzyProgram α) (increment totalGain : α) (state : Funds α × Bool)
    (o : Offer α) : Except (Fault α) (Funds α × Bool) := do
  let f := state.1
  let part ← quotient (increment * o.gain) totalGain
  let share := (p.headroomAt f o.goal.index).hold (least (least part o.step) f.left)
  return if minStep < share then (f.give o.goal.index share, true) else state

/-- Steps shared among goals until none gains, none moves, or the rounds are used up; `made`
rounds came before. -/
def climb (p : FuzzyProgram α) (goals : List (FuzzyGoal α)) (increment : α) (made : Nat) :
    Nat → Funds α → Except (Fault α) (Nat × Funds α)
  | 0, f => .ok (made, f)
  | rounds + 1, f => do
    let offers := (← goals.mapM (p.offer? f increment)).filterMap id
    if offers.isEmpty then return (made, f)
    let totalGain := total (offers.map (·.gain))
    let order := byDescending (·.ratio) offers
    let (f', moved) ← order.foldlM (p.takeShare increment totalGain) (f, false)
    if moved then p.climb goals increment (made + 1) rounds f' else return (made + 1, f')

/-- One tier: up to 500 coarse rounds, then up to 100 finer ones. -/
def climbTier (p : FuzzyProgram α) (state : Nat × Funds α) (goals : List (FuzzyGoal α)) :
    Except (Fault α) (Nat × Funds α) := do
  let (made, f) := state
  let (coarse, f) ← p.climb goals (greatest (f.left / 200) 0.5) 0 500 f
  let (fine, f) ← p.climb goals (greatest (f.left / 50) 1) 0 100 f
  return (made + coarse + fine, f)

/-- How much a goal can still use: up to its variable's bound and its curve's useful limit. -/
def room (p : FuzzyProgram α) (f : Funds α) (goal : FuzzyGoal α) : α :=
  greatest 0 ((p.headroomAt f goal.index).drawIn (goal.curve.usefulLimit - f.amount goal.index))

/-- A goal with the step that completes it and the gain per unit of that step. -/
structure Completion (α : Type) where
  goal : FuzzyGoal α
  /-- The step. -/
  step : α
  /-- The gain per unit. -/
  ratio : α

/-- The better one of the best completion so far and that of the next goal. -/
def considerCompletion (p : FuzzyProgram α) (f : Funds α) (best : Option (Completion α))
    (goal : FuzzyGoal α) : Except (Fault α) (Option (Completion α)) := do
  let step := least f.left (p.room f goal)
  if step ≤ minStep then return best
  let gain ← gainOf goal (f.amount goal.index) step
  if 0 < gain then
    let ratio ← quotient gain step
    return if best.elim 0 (·.ratio) < ratio then some ⟨goal, step, ratio⟩ else best
  else return best

/-- What is left given to the goal that gains most per unit, so many times. -/
def spendOnGoals (p : FuzzyProgram α) (ordered : List (FuzzyGoal α)) :
    Nat → Funds α → Except (Fault α) (Funds α)
  | 0, f => .ok f
  | times + 1, f => do
    match ← ordered.foldlM (p.considerCompletion f) none with
    | none => return f
    | some best => p.spendOnGoals ordered times (f.give best.goal.index best.step)

/-- One category's share of a round of spending. -/
def takeProportion (p : FuzzyProgram α) (increment totalTarget : α) (f : Funds α)
    (goal : FuzzyGoal α) : Except (Fault α) (Funds α) := do
  let wanted ← quotient (increment * goal.curve.usefulLimit) totalTarget
  return f.give goal.index (least (least wanted (p.room f goal)) f.left)

/-- What is left spread over goals in proportion to what they can use, in rounds. -/
def spendInRounds (p : FuzzyProgram α) (goals : List (FuzzyGoal α)) (increment : α) :
    Nat → Funds α → Except (Fault α) (Funds α)
  | 0, f => .ok f
  | rounds + 1, f => do
    let openGoals := goals.filter fun g => minStep < p.room f g
    let totalTarget := total (openGoals.map (·.curve.usefulLimit))
    if f.left ≤ minStep ∨ totalTarget ≤ 0 then return f
    else
      let f ← openGoals.foldlM (p.takeProportion increment totalTarget) f
      p.spendInRounds goals increment rounds f

/-- The goals on categories. -/
def categoryGoals (p : FuzzyProgram α) : List (FuzzyGoal α) :=
  p.goals.filter fun g => (p.vars[g.index]?.map (·.kind)) == some .category

/-- What is left spread over the categories. -/
def spendOnCategories (p : FuzzyProgram α) (f : Funds α) : Except (Fault α) (Funds α) :=
  let goals := p.categoryGoals
  if goals.isEmpty then .ok f else p.spendInRounds goals (f.left / 50) 100 f

/-- How much a variable can take without losing satisfaction: up to its bound, and no further
than the plateau of any goal on it that falls again. -/
def harmlessRoom (p : FuzzyProgram α) (f : Funds α) (i : Nat) (v : Variable α) : Limit α :=
  p.goals.foldl
    (fun room g =>
      if g.index = i && !g.curve.isMonotone then
        .upTo (room.drawIn (greatest 0 (g.curve.corners.peakRight - f.amount i)))
      else room)
    (v.headroom (f.amount i))

/-- What is left put on a variable. -/
def topUp (p : FuzzyProgram α) (f : Funds α) (entry : Variable α × Nat) : Funds α :=
  if f.left ≤ minStep then f
  else
    let amount := (p.harmlessRoom f entry.2 entry.1).drawIn f.left
    if 0 < amount then f.give entry.2 amount else f

/-- What is left put on any variable that can take it. -/
def spendOnHeadroom (p : FuzzyProgram α) (f : Funds α) : Funds α :=
  p.vars.zipIdx.foldl p.topUp f

/-- All of the climbs, tier by tier, from the lower bounds. -/
def climbAll (p : FuzzyProgram α) : Except (Fault α) (Nat × Funds α) := do
  let (amounts, left) ← startAtMinimums p.vars p.income
  (tiers (·.priority) p.goals).foldlM (fun state tier => p.climbTier state tier.2)
    (0, ⟨amounts, left⟩)

/-- The greedy run: its amounts and the number of rounds of its climbs. -/
def greedy (p : FuzzyProgram α) : Except (Fault α) (Nat × Funds α) := do
  let (rounds, f) ← p.climbAll
  let ordered := (tiers (·.priority) p.goals).flatMap (·.2)
  let f ← p.spendOnGoals ordered ordered.length f
  let f ← p.spendOnCategories f
  return (rounds, p.spendOnHeadroom f)

end FuzzyProgram

end GoalBudget
