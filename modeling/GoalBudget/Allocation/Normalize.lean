import GoalBudget.Deviation.OfBudget
import GoalBudget.Number.Limit

/-!
# Meeting the income

After rounding, the amounts need not add up to the income. A surplus is shared among the goals that
have room, in proportion to what they have, and only when they take nothing among the flexible
categories. A deficit is trimmed in three phases: goals above their targets, flexible categories
above their minimums, goals down to zero; within a phase the largest excess first. Passes are
repeated until the income is met or nothing moves (section 4.5 of the specification).

A goal has room up to what is missing from it. A flexible category is filled in two stages, to its
target and once there to its maximum, or without end if it has none (`flexibleCap`). Room of a cent
or less does not count.

One sharing gives every entry its proportion of the whole amount, held at its room (`spread`). What
the held ones leave is not given to the others in the same pass, but to those with room in the next
one. If no entry has anything the shares are equal.

In a phase of trimming the excesses are taken before the first cut, so a cut does not change the
order (`trim`). A phase gets what was trimmed before it and stops when enough is trimmed.
-/

namespace GoalBudget

variable {α : Type} [Scalar α]

/-- Totals within this much of the income count as meeting it. -/
def normalizationTolerance : α := 0.01

/-- The amounts that may still move. -/
structure Pools (α : Type) where
  flexible : Ledger α
  goals : Ledger α

/-- The share of one entry added to it and to what has moved. -/
def spreadStep (amount sumOfWeights : α) (weights : Ledger α) (state : Ledger α × α)
    (entry : String × Limit α) : Ledger α × α :=
  let share := entry.2.hold (amount * weights.getD entry.1 0 / sumOfWeights)
  (state.1.modify entry.1 (· + share), state.2 + share)

/-- The weights by which an amount is shared: the current amounts, or all the same if those
add up to nothing. -/
def spreadWeights (allocations : Ledger α) (room : Ledger (Limit α)) : Ledger α :=
  let own := room.map fun key _ => allocations.getD key 0
  if total own.values ≤ 0 then room.map fun _ _ => 1 else own

/-- An amount shared over the entries with room, in proportion to their weights and as far as
the room goes. Also how much has moved. -/
def spread (amount : α) (allocations : Ledger α) (room : Ledger (Limit α)) : Ledger α × α :=
  if room.entries.isEmpty then (allocations, 0)
  else
    let weights := spreadWeights allocations room
    room.sorted.entries.foldl (spreadStep amount (total weights.values) weights) (allocations, 0)

/-- How much the goals can still take, those that can take something. -/
def goalRoom (b : Budget α) (goals : Ledger α) : Ledger (Limit α) :=
  let room := goals.map fun key x => (b.goals.get? key).elim 0 fun g => g.remainingAmount - x
  (room.filter fun _ x => normalizationTolerance < x).map fun _ x => .upTo x

/-- How far a flexible category may be filled: to its target, and once there to its maximum. -/
def flexibleCap (level : α) (c : Category α) (x : α) : Limit α :=
  let target := c.targetAt level
  if target - normalizationTolerance ≤ x then
    if 0 < c.maximum then .upTo c.maximum else .unbounded
  else .upTo target

/-- How much the flexible categories can still take, those that can take something. -/
def flexibleRoom (b : Budget α) (s : Scenario α) (flexible : Ledger α) : Ledger (Limit α) :=
  let room := flexible.map fun key x =>
    (b.flexible.get? key).elim (.upTo 0) fun c => (flexibleCap s.spendingLevel c x).minus x
  room.filter fun _ r => r.exceeds normalizationTolerance

/-- A surplus shared among the goals, or among the flexible categories if the goals take
nothing. Also how much has moved. -/
def absorbSurplus (b : Budget α) (s : Scenario α) (amount : α) (p : Pools α) : Pools α × α :=
  let (goals, moved) := spread amount p.goals (goalRoom b p.goals)
  if 0 < moved then ({ p with goals }, moved)
  else
    let (flexible, moved) := spread amount p.flexible (flexibleRoom b s p.flexible)
    (⟨flexible, goals⟩, moved)

/-- One entry cut by its excess, as far as is still needed. -/
def trimStep (amount : α) (state : Ledger α × α) (entry : String × α) : Ledger α × α :=
  if amount ≤ state.2 then state
  else
    let cut := least entry.2 (amount - state.2)
    (state.1.modify entry.1 (· - cut), state.2 + cut)

/-- Whether an excess is cut before another: the larger first, then by id. -/
def cutFirst (a b : String × α) : Bool :=
  -a.2 < -b.2 || (-a.2 == -b.2 && a.1 ≤ b.1)

/-- What the entries have above their floors, the largest first. -/
def excesses (floors : Ledger α) (allocations : Ledger α) : List (String × α) :=
  let above := allocations.map fun key x => x - floors.getD key 0
  (above.filter fun _ x => 0 < x).entries.mergeSort cutFirst

/-- Entries cut down towards their floors until enough is trimmed. -/
def trim (amount : α) (floors : Ledger α) (state : Ledger α × α) : Ledger α × α :=
  (excesses floors state.1).foldl (trimStep amount) state

/-- A deficit trimmed in three phases. Also how much was trimmed. -/
def recoverDeficit (b : Budget α) (s : Scenario α) (amount : α) (p : Pools α) : Pools α × α :=
  let targets := b.goals.map fun _ g => g.target s.goalFactor
  let minimums := b.flexible.map fun _ c => c.minimum
  let (goals, trimmed) := trim amount targets (p.goals, 0)
  let (flexible, trimmed) := trim amount minimums (p.flexible, trimmed)
  let (goals, trimmed) := trim amount ∅ (goals, trimmed)
  (⟨flexible, goals⟩, trimmed)

/-- What is missing from the income, negative if there is too much. -/
def residual (income committed : α) (p : Pools α) : α :=
  income - committed - total p.flexible.values - total p.goals.values

/-- Passes made until the income is met or nothing moves, at most so many. -/
def normalize (b : Budget α) (s : Scenario α) (committed : α) : Nat → Pools α → Pools α
  | 0, p => p
  | passes + 1, p =>
    let missing := residual b.income committed p
    if magnitude missing ≤ normalizationTolerance then p
    else
      let (p', moved) :=
        if 0 < missing then absorbSurplus b s missing p else recoverDeficit b s (-missing) p
      if moved ≤ 0 then p' else normalize b s committed passes p'

end GoalBudget
