import GoalBudget.Bucket.OfBudget

/-!
# Minimums first, then buckets

The hybrid strategy has three phases (section 4.4 of the specification). First every mandatory
expense, debt payment due and flexible minimum is paid. Then the surplus is split into four buckets
by the shares of the scenario. Last every bucket is spent on its items. The final amounts combine
what an item got in the first phase and from its bucket.

It fails only if the first phase cannot be paid for, with a hundredth of tolerance. What is left of
a bucket stays in it: buckets are spent separately, and nothing moves from one to another.

The final records are keyed by id. An item of a bucket adds to the record of the first phase, if
there is one, and gets a record of its own otherwise, if it got anything (`Hybrid.enter`). Debts and
flexible categories thus have one record for both phases.

Rewards are counted over all items of all buckets, with a fixed reward for each mandatory expense
and each debt on both sides of the comparison.
-/

namespace GoalBudget

variable {α : Type} [Scalar α]

/-- The final amount of an item and where it came from. -/
structure Detail (α : Type) where
  id : String
  name : String
  kind : ItemKind
  /-- The phase that first gave it something. -/
  phase : Nat
  /-- The bucket it was funded from, if any. -/
  purpose : Option Purpose
  amount : α
  /-- The level it reached. -/
  level : String
  reward : α

/-- What the hybrid strategy leads to. -/
structure HybridResult (α : Type) where
  /-- What mandatory expenses got in the first phase. -/
  mandatory : Ledger α
  /-- What debts got in the first phase. -/
  debtMinimums : Ledger α
  /-- What flexible categories got in the first phase. -/
  flexibleMinimums : Ledger α
  /-- The sum of the first phase. -/
  phase1Total : α
  /-- What was left after the first phase. -/
  surplus : α
  buckets : List (Bucket α)
  /-- The final amounts. -/
  final : Ledger (Detail α)
  /-- The sum of the final amounts. -/
  totalAllocated : α
  totalReward : α
  /-- The rewards that the highest levels would have given. -/
  maxReward : α

namespace Hybrid

/-- The reward for what is paid in the first phase. -/
def basicReward : α := 100

/-- What the mandatory expenses get in the first phase. -/
def mandatoryMinimums (b : Budget α) : Ledger α := b.mandatory.sorted.map fun _ c => c.minimum

/-- What the debts get in the first phase. -/
def debtMinimums (b : Budget α) : Ledger α := b.debts.sorted.map fun _ d => d.scheduledPayment

/-- What the flexible categories get in the first phase, those that get something. -/
def flexibleMinimums (b : Budget α) : Ledger α :=
  (b.flexible.sorted.map fun _ c => c.minimum).filter fun _ amount => 0 < amount

/-- The sum of the first phase. -/
def phase1Total (b : Budget α) : α :=
  total (mandatoryMinimums b).values + total (debtMinimums b).values +
    total (flexibleMinimums b).values

/-- The records of what the first phase pays with a reward: mandatory expenses and debts. -/
def rewardedDetails (b : Budget α) : List (String × Detail α) :=
  ((mandatoryMinimums b).entries.map fun e =>
      (e.1, ⟨e.1, e.1, .category, 1, none, e.2, "required", basicReward⟩)) ++
    (b.debts.sorted.entries.map fun e =>
      (e.1, ⟨e.1, e.2.name, .debt, 1, none, e.2.scheduledPayment, "minimum", basicReward⟩))

/-- The records of what the first phase pays. -/
def firstDetails (b : Budget α) : Ledger (Detail α) :=
  .ofList (rewardedDetails b ++
    (flexibleMinimums b).entries.map fun e =>
      (e.1, ⟨e.1, e.1, .category, 1, none, e.2, "minimum", 0⟩))

/-- What an item got from its bucket entered into the records. -/
def enter (purpose : Purpose) (final : Ledger (Detail α)) (item : BucketItem α) :
    Ledger (Detail α) :=
  if final.contains item.id then
    final.modify item.id fun d =>
      { d with
        amount := d.amount + item.allocated
        purpose := some purpose
        reward := d.reward + item.reward
        level := if 0 < item.allocated then item.label else d.level }
  else if 0 < item.allocated then
    final.insert item.id
      ⟨item.id, item.name, item.kind, 3, some purpose, item.allocated, item.label, item.reward⟩
  else final

/-- What all items of a bucket got entered into the records. -/
def enterBucket (final : Ledger (Detail α)) (b : Bucket α) : Ledger (Detail α) :=
  b.items.foldl (enter b.purpose) final

/-- All three phases. -/
def solve (b : Budget α) (s : Scenario α) : Except (Fault α) (HybridResult α) := do
  let committed := phase1Total b
  if b.income + deviationTolerance < committed then
    throw (.infeasibleMinimums (committed - b.income))
  let surplus := greatest 0 (b.income - committed)
  let spent := (← buckets b s surplus).map Bucket.spend
  let items := spent.flatMap (·.items)
  let final := spent.foldl enterBucket (firstDetails b)
  let sure : α := basicReward * ((rewardedDetails b).length : α)
  return {
    mandatory := mandatoryMinimums b
    debtMinimums := debtMinimums b
    flexibleMinimums := flexibleMinimums b
    phase1Total := committed
    surplus
    buckets := spent
    final
    totalAllocated := total (final.values.map (·.amount))
    totalReward := items.foldl (fun sum item => sum + item.reward) sure
    maxReward := items.foldl (fun sum item => sum + item.topReward) sure }

end Hybrid

end GoalBudget
