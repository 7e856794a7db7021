import GoalBudget.Ladder.Basic

/-!
# Ladders by greedy steps

Tier by tier, the goals take turns by descending weight, and each takes the highest level that its
variable's bound admits and the money pays for (section 4.4 of the specification). A turn looks down
the ladder and ends at the first level that the variable has already, so an amount never falls
(`LadderProgram.takeHighest`).

After the turns of a tier the upgrades to a next level are bought, the best reward per cost first,
of two equal ones that of the earlier goal (`LadderProgram.considerUpgrade`). The next level is the
first one above the amount by more than the tolerance; it is considered only if the bound admits it,
the money pays for it and it adds to the reward.

Each tier may buy 500 upgrades. Turns and upgrades both count as steps of the result, a turn also if
it changed nothing.
-/

namespace GoalBudget.LadderProgram

variable {α : Type} [Scalar α]

/-- Whether the bound of the variable at a position admits a level, but for the tolerance. -/
def admits (p : LadderProgram α) (i : Nat) (l : Level α) : Bool :=
  match p.vars[i]? with
  | some v => !(v.isBounded && v.maximum + levelTolerance < l.value)
  | none => true

/-- The highest admitted level that is affordable taken, of levels by descending amount.
The search ends at a level that the variable has already. -/
def takeHighest (p : LadderProgram α) (i : Nat) (f : Funds α) : List (Level α) → Funds α
  | [] => f
  | l :: lower =>
    if !p.admits i l then p.takeHighest i f lower
    else
      let needed := l.value - f.amount i
      if needed ≤ 0 then f
      else if needed ≤ f.left then f.raiseTo i l.value needed
      else p.takeHighest i f lower

/-- The turn of one goal. -/
def takeTurn (p : LadderProgram α) (f : Funds α) (g : LadderGoal α) : Funds α :=
  p.takeHighest g.index f g.levels.reverse

/-- A step to the next level of a goal. -/
structure Upgrade (α : Type) where
  /-- The position of the goal's variable. -/
  index : Nat
  /-- The amount of the next level. -/
  value : α
  /-- What is missing to it. -/
  cost : α
  /-- The reward gained per cost. -/
  ratio : α

/-- The better one of the best upgrade so far and that of the next goal, if that one is
admitted, affordable and rewarding. -/
def considerUpgrade (p : LadderProgram α) (f : Funds α) (best : Option (Upgrade α))
    (g : LadderGoal α) : Except (Fault α) (Option (Upgrade α)) := do
  let current := f.amount g.index
  match g.levels.find? fun l => current + levelTolerance < l.value with
  | none => return best
  | some next =>
    if !p.admits g.index next then return best
    let cost := next.value - current
    let gain := next.reward - (g.reached? current).elim 0 (·.reward)
    if cost ≤ f.left && 0 < gain then
      let ratio ← quotient gain cost
      return if best.elim 0 (·.ratio) < ratio then some ⟨g.index, next.value, cost, ratio⟩ else best
    else return best

/-- Upgrades bought until none is worth it, at most so many; `made` came before. -/
def upgrade (p : LadderProgram α) (tier : List (LadderGoal α)) (made : Nat) :
    Nat → Funds α → Except (Fault α) (Nat × Funds α)
  | 0, f => .ok (made, f)
  | rounds + 1, f => do
    match ← tier.foldlM (p.considerUpgrade f) none with
    | none => return (made, f)
    | some u => p.upgrade tier (made + 1) rounds (f.raiseTo u.index u.value u.cost)

/-- One tier: every goal's turn, then at most 500 upgrades. Both count as steps. -/
def serveTier (p : LadderProgram α) (state : Nat × Funds α) (tier : List (LadderGoal α)) :
    Except (Fault α) (Nat × Funds α) := do
  let order := byDescending (·.weight) tier
  let f := order.foldl p.takeTurn state.2
  let (bought, f) ← p.upgrade order 0 500 f
  return (state.1 + order.length + bought, f)

/-- The greedy run: its number of steps and its amounts. -/
def greedy (p : LadderProgram α) : Except (Fault α) (Nat × Funds α) := do
  let (amounts, left) ← startAtMinimums p.vars p.income
  (tiers (·.priority) p.goals).foldlM (fun state tier => p.serveTier state tier.2)
    (0, ⟨amounts, left⟩)

end GoalBudget.LadderProgram
