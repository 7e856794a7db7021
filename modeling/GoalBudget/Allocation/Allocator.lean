import GoalBudget.Allocation.Basic
import GoalBudget.Allocation.Normalize
import GoalBudget.Allocation.Proposal
import GoalBudget.Deviation.Solve
import GoalBudget.Fuzzy.OfBudget
import GoalBudget.Fuzzy.Solve
import GoalBudget.Ladder.OfBudget
import GoalBudget.Ladder.Solve

/-!
# The allocator

Mandatory expenses and debt payments due are settled first. Flexible spending and goals are left to
a strategy, which works with the income that remains; only the hybrid strategy sees the whole budget
and may add to debt payments. What the strategy proposes is rounded, brought back within bounds, and
made to meet the income (section 4.5 of the specification). In order:

* the commitments are checked against the income, without tolerance;
* the strategy proposes amounts for the budget that is left to it (`Allocator.propose`);
* payments to debts are settled, with what the strategy adds (`Allocator.payments`);
* flexible amounts are rounded and moved within the bounds of their category, contributions to goals
  are rounded and held at what is missing (`Allocator.flexibleAmounts`, `Allocator.goalAmounts`);
* at most a hundred passes make the amounts meet the income (`normalize`);
* the allocation is put together and checked (`Allocation.check`).

Mandatory expenses and payments are not rounded, and no pass moves them. Which goals count as
achieved is what the strategy says, listed in the order of the ids.

Rounding takes half units up and so can raise a proposal as well as lower it. The backend for
programs with binary columns and the solver of linear programs are parameters, since both can come
from outside.
-/

namespace GoalBudget

variable {α : Type} [Scalar α]

/-! ## Rounding -/

/-- An amount rounded to a multiple of a unit, a half up. Without a unit, or with a unit of
zero, the amount itself. -/
def roundToUnit (amount : α) (unit : Option α) : Except (Fault α) α :=
  match unit with
  | none => .ok amount
  | some unit =>
    if unit == 0 then .ok amount
    else
      let x := amount / unit + 0.5
      if isUndefined x then .error .undefinedRounded
      else if isInfinite x then .error .infiniteRounded
      else .ok (Scalar.floor x * unit)

/-- An amount moved within the bounds of a category. -/
def Category.clamp (c : Category α) (amount : α) : α :=
  let raised := greatest amount c.minimum
  if 0 < c.maximum then least raised c.maximum else raised

/-! ## The allocation of a budget -/

/-- A strategy with its settings. -/
structure Allocator (α : Type) where
  strategy : Strategy
  /-- The unit of rounding, if amounts are rounded. -/
  roundingUnit : Option α
  /-- The backends for programs with binary columns, by number of columns. -/
  backends : Nat → Option (Backend α)
  /-- The solver of linear programs, by number of columns. -/
  lp : Nat → Except (Fault α) (Backend α)

namespace Allocator

/-- The unit of rounding where none is given. -/
def defaultUnit : α := 100000

/-- The budget that is left to a strategy: flexible spending and goals, with the income after
the commitments. -/
def reduced (b : Budget α) : Except (Fault α) (Budget α) :=
  Budget.make b.surplus ∅ b.flexible ∅ b.goals

/-- What the strategy proposes. -/
def propose (a : Allocator α) (b : Budget α) (s : Scenario α) :
    Except (Fault α) (Proposal α) := do
  match a.strategy with
  | .hybrid => return (← Hybrid.solve b s).proposal
  | .fuzzy =>
    let p ← FuzzyProgram.ofBudget (← reduced b) s
    return (← p.solve a.backends).proposal
  | .ladder =>
    let p ← LadderProgram.ofBudget (← reduced b) s
    return (← p.solve a.backends).proposal
  | .preemptive =>
    let p ← DeviationProgram.tiersOfBudget (← reduced b) s
    return (← p.solvePreemptive).proposal
  | .linear =>
    let p ← DeviationProgram.penaltiesOfBudget (← reduced b) s
    return (← p.solveLinear a.lp).proposal

/-- The session with a backend while the strategy works, if there is one. -/
def session? (a : Allocator α) (b : Budget α) (s : Scenario α) : Option (Session α) := do
  guard b.shortfall?.isNone
  let r ← (reduced b).toOption
  match a.strategy with
  | .fuzzy => (← (FuzzyProgram.ofBudget r s).toOption).session? a.backends
  | .ladder => (← (LadderProgram.ofBudget r s).toOption).session? a.backends
  | _ => none

/-- The payment due to a debt. -/
def duePayment (d : Debt α) : Payment α :=
  ⟨d.scheduledPayment, d.minimumPayment, greatest 0 (d.scheduledPayment - d.minimumPayment)⟩

/-- The payments of all debts with what the strategy adds. -/
def payments (b : Budget α) (extra : Ledger α) : Ledger (Payment α) :=
  extra.entries.foldl
    (fun l e => l.modify e.1 fun p => { p with extra := p.extra + e.2, total := p.total + e.2 })
    (b.debts.sorted.map fun _ d => duePayment d)

/-- Entries changed one after the other, up to the first fault. -/
def mapEntries {β : Type} (f : String → β → Except (Fault α) α) (l : Ledger β) :
    Except (Fault α) (Ledger α) := do
  return .ofList (← l.entries.mapM fun e => do return (e.1, ← f e.1 e.2))

/-- The amounts of the flexible categories, rounded and within bounds. -/
def flexibleAmounts (a : Allocator α) (b : Budget α) (values : Ledger α) :
    Except (Fault α) (Ledger α) :=
  mapEntries
    (fun key c => do return c.clamp (← roundToUnit (values.getD key 0) a.roundingUnit))
    b.flexible.sorted

/-- The contributions to the goals, rounded and not above what is missing. -/
def goalAmounts (a : Allocator α) (b : Budget α) (values : Ledger α) :
    Except (Fault α) (Ledger α) :=
  mapEntries
    (fun key g => do
      return least (← roundToUnit (values.getD key 0) a.roundingUnit) g.remainingAmount)
    b.goals.sorted

/-- The most passes made to meet the income. -/
def maxPasses : Nat := 100

/-- The allocation of a budget in a scenario. -/
def solve (a : Allocator α) (b : Budget α) (s : Scenario α) :
    Except (Fault α) (Allocation α) := do
  if let some deficit := b.shortfall? then throw (.infeasibleMinimums deficit)
  let categories := b.mandatory.sorted.map fun _ c => c.minimum
  let proposal ← a.propose b s
  let debts := payments b proposal.debtExtra
  let flexible ← a.flexibleAmounts b proposal.values
  let goals ← a.goalAmounts b proposal.values
  let committed := total categories.values + total (debts.values.map (·.total))
  let pools := normalize b s committed maxPasses ⟨flexible, goals⟩
  let sum := committed + total pools.flexible.values + total pools.goals.values
  let ids := b.goals.sorted.keys
  Allocation.check {
    categories := categories.merge pools.flexible
    goals := pools.goals
    debts
    allocated := sum
    surplus := b.income - sum
    score := proposal.score
    iterations := proposal.iterations
    achieved := ids.filter proposal.achieved.contains
    unachieved := ids.filter (!proposal.achieved.contains ·)
    strategy := a.strategy.name }

end Allocator

end GoalBudget
