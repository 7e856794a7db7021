import GoalBudget.Proofs.Allocation.Outcome
import GoalBudget.Proofs.Strategy.Order

/-!
# The order of items in an allocation

The passes that make an allocation meet its income read a budget by id only: the room of every item
and the floors that excesses are measured from (`normalize_reordered`). All lists come from sorted
ledgers. So budgets with the same items have the same allocation, or the same fault
(`Allocator.allocation_reordered`).

Where a list is made from a ledger without sorting, as in the excesses of a phase, it is sorted
afterwards, by the excess and then by the id; ids are not repeated, so the order of the ledger does
not come through (`trim_congr`). Sums do not depend on order with exact numbers.
-/

namespace GoalBudget

variable {b c : Budget Rat}

/-! ## The passes -/

/-- Floors matter by what is read of them. -/
theorem trim_congr {floors floors' : Ledger Rat} (h : floors.Reordered floors') (amount : Rat)
    (state : Ledger Rat × Rat) : trim amount floors state = trim amount floors' state := by
  have hread (key : String) : floors.getD key 0 = floors'.getD key 0 := h.getD_eq key 0
  simp only [trim, excesses, hread]

/-- The income and what single passes do is all that matters of a budget. -/
theorem normalize_congr {s : Scenario Rat} {committed : Rat} (hincome : b.income = c.income)
    (habsorb : ∀ amount p, absorbSurplus b s amount p = absorbSurplus c s amount p)
    (hrecover : ∀ amount p, recoverDeficit b s amount p = recoverDeficit c s amount p)
    (passes : Nat) (p : Pools Rat) :
    normalize b s committed passes p = normalize c s committed passes p := by
  induction passes generalizing p with
  | zero => rfl
  | succ passes ih => simp only [normalize, hincome, habsorb, hrecover, ih]

section
variable (h : b.Reordered c) (s : Scenario Rat)
include h

theorem absorbSurplus_reordered (amount : Rat) (p : Pools Rat) :
    absorbSurplus b s amount p = absorbSurplus c s amount p := by
  have hgoals : goalRoom b p.goals = goalRoom c p.goals := by
    simp only [goalRoom, h.goals.get?_eq]
  have hflexible : flexibleRoom b s p.flexible = flexibleRoom c s p.flexible := by
    simp only [flexibleRoom, h.flexible.get?_eq]
  rw [absorbSurplus, absorbSurplus, hgoals, hflexible]

theorem recoverDeficit_reordered (amount : Rat) (p : Pools Rat) :
    recoverDeficit b s amount p = recoverDeficit c s amount p := by
  simp only [recoverDeficit, trim_congr (h.goals.map _), trim_congr (h.flexible.map _)]

theorem normalize_reordered (committed : Rat) (passes : Nat) (p : Pools Rat) :
    normalize b s committed passes p = normalize c s committed passes p :=
  normalize_congr h.income (absorbSurplus_reordered h s) (recoverDeficit_reordered h s) passes p

end

/-! ## The allocation -/

namespace Allocator

variable (a : Allocator Rat) (h : b.Reordered c)
include h

/-- What is done with the budgets left to a strategy is the same if it is for all budgets of the
same items. -/
theorem reduced_bind {τ : Type} {f : Budget Rat → Except (Fault Rat) τ}
    (hf : ∀ b' c', b'.Reordered c' → f b' = f c') : reduced b >>= f = reduced c >>= f := by
  obtain ⟨b', hb⟩ := exists_reduced b
  obtain ⟨c', hc⟩ := exists_reduced c
  obtain ⟨hincome, hmandatory, hdebts, hflexible, hgoals⟩ := reduced_spec hb
  obtain ⟨hincome', hmandatory', hdebts', hflexible', hgoals'⟩ := reduced_spec hc
  rw [hb, hc]
  refine hf b' c' ?_
  constructor
  case income => rw [hincome, hincome', h.surplus_eq]
  case mandatory => exact hmandatory ▸ hmandatory' ▸ .refl _
  case flexible => exact hflexible ▸ hflexible' ▸ h.flexible
  case debts => exact hdebts ▸ hdebts' ▸ .refl _
  case goals => exact hgoals ▸ hgoals' ▸ h.goals

theorem propose_reordered (s : Scenario Rat) : a.propose b s = a.propose c s := by
  unfold propose
  split
  next => rw [Hybrid.solve_reordered h]
  next => exact reduced_bind h fun b' c' h' => by rw [FuzzyProgram.ofBudget_reordered h']
  next => exact reduced_bind h fun b' c' h' => by rw [LadderProgram.ofBudget_reordered h']
  next =>
    exact reduced_bind h fun b' c' h' => by rw [DeviationProgram.tiersOfBudget_reordered h']
  next =>
    exact reduced_bind h fun b' c' h' => by rw [DeviationProgram.penaltiesOfBudget_reordered h']

theorem allocation_reordered (s : Scenario Rat) : a.solve b s = a.solve c s := by
  have hpayments (extra : Ledger Rat) : payments b extra = payments c extra := by
    rw [payments, payments, h.debts.sorted_eq]
  have hflexible (values : Ledger Rat) :
      a.flexibleAmounts b values = a.flexibleAmounts c values := by
    rw [flexibleAmounts, flexibleAmounts, h.flexible.sorted_eq]
  have hgoals (values : Ledger Rat) : a.goalAmounts b values = a.goalAmounts c values := by
    rw [goalAmounts, goalAmounts, h.goals.sorted_eq]
  unfold solve
  simp only [h.shortfall?_eq, h.mandatory.sorted_eq, h.goals.sorted_eq, h.income, hpayments,
    hflexible, hgoals, propose_reordered a h, normalize_reordered h]

end Allocator

end GoalBudget
