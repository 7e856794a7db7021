import GoalBudget.Proofs.Allocation.Conservation

/-!
# Every amount keeps to its bounds

Strategies have bounds of their own, rounding leaves them, and the passes move amounts up and down.
In the end every amount is within the bounds of its item again, whatever the strategy, and exactly
the items of the budget have amounts: `solve_within_bounds`.

The bounds of an item are those of the budget and not of a strategy. Mandatory expenses get their
minimum, debts at least what is due and with the hybrid strategy no more than their balance on top,
flexible categories something between minimum and maximum, goals something between zero and what is
missing (`Debt.Admits`, `Category.Admits`, `Goal.Admits`).
-/

namespace GoalBudget

/-- The payments that a debt may get. The hybrid strategy may add to what is due, but not to a
forced payment and not beyond the balance; the other strategies pay what is due. -/
def Debt.Admits (d : Debt Rat) (strategy : Strategy) (x : Rat) : Prop :=
  if strategy = .hybrid then
    ∃ extra, x = d.scheduledPayment + extra ∧ 0 ≤ extra ∧ (d.isForced = true → extra = 0) ∧
      x ≤ max d.currentBalance d.scheduledPayment
  else x = d.scheduledPayment

namespace Allocator

variable {a : Allocator Rat} {b : Budget Rat} {s : Scenario Rat} {r : Allocation Rat}
  {proposal : Proposal Rat} {start : Pools Rat} {key : String}

/-- What a debt is paid is what it may get. -/
theorem Run.debt_admits (h : a.Run b s r proposal start) (hlp : a.HasSoundLp) {d : Debt Rat}
    {payment : Payment Rat} (hd : b.debts.get? key = some d)
    (hpayment : r.debts.get? key = some payment) : d.Admits a.strategy payment.total := by
  rw [h.debts_eq] at hpayment
  have htotal := total_payments hd hpayment
  unfold Debt.Admits
  split
  next =>
    -- without an entry a debt gets the payment due, and nothing on top
    cases hx : proposal.debtExtra.get? key with
    | none =>
      rw [Ledger.getD, hx, Option.getD_none] at htotal
      refine ⟨0, htotal, le_refl 0, fun _ => rfl, ?_⟩
      rw [htotal, add_zero]
      exact le_max_right _ _
    | some x =>
      obtain ⟨d', hd', hforced, hnonneg, hle⟩ := (propose_fits hlp h.proposed).debtExtra key x hx
      rw [hd, Option.some.injEq] at hd'
      subst hd'
      have hdue : d.scheduledPayment = d.minimumPayment := by
        rw [Debt.scheduledPayment, hforced]
        rfl
      rw [Ledger.getD_eq hx] at htotal
      refine ⟨x, htotal, hnonneg, fun hf => absurd hf (by simp [hforced]), ?_⟩
      refine le_trans ?_ (le_max_left _ _)
      rw [htotal, hdue]
      linarith
  next hstrategy =>
    -- the other strategies give debts nothing beyond the payments due
    rw [propose_no_extra hstrategy h.proposed, Ledger.getD_empty, add_zero] at htotal
    exact htotal

/-- Exactly the items of the budget have amounts, and every amount is within the bounds of its
item. For all strategies, units of rounding and answers of backends. -/
theorem solve_within_bounds (hunit : ∀ u ∈ a.roundingUnit, 0 < u) (hlp : a.HasSoundLp)
    (h : a.solve b s = .ok r) :
    r.categories.keys.Perm (b.mandatory.keys ++ b.flexible.keys) ∧
      r.goals.keys.Perm b.goals.keys ∧
      r.debts.keys.Perm b.debts.keys ∧
      (∀ key c, b.mandatory.get? key = some c → r.categories.get? key = some c.minimum) ∧
      (∀ key d, b.debts.get? key = some d →
        ∃ payment, r.debts.get? key = some payment ∧ d.Admits a.strategy payment.total) ∧
      (∀ key c, b.flexible.get? key = some c →
        ∃ x, r.categories.get? key = some x ∧ c.minimum ≤ x ∧ (0 < c.maximum → x ≤ c.maximum)) ∧
      ∀ key g, b.goals.get? key = some g →
        ∃ x, r.goals.get? key = some x ∧ 0 ≤ x ∧ x ≤ g.remainingAmount := by
  obtain ⟨proposal, start, hrun⟩ := solve_eq_ok h
  have hend := hrun.within_end hlp hunit
  refine ⟨hrun.keys_categories, hrun.keys_goals, hrun.keys_debts, ?_, ?_, ?_, ?_⟩
  · intro key c hc
    rw [hrun.categories_eq]
    apply Ledger.get?_merge_left (mandatory_not_mem hend.flexible_keys)
    rw [Ledger.get?_map, Ledger.get?_sorted, hc]
    rfl
  · intro key d hd
    obtain ⟨payment, hpayment⟩ := Ledger.mem_keys_iff.mp
      (hrun.keys_debts.mem_iff.mpr (Ledger.mem_keys_of_get? hd))
    exact ⟨payment, hpayment, hrun.debt_admits hlp hd hpayment⟩
  · intro key c hc
    have hmem := Ledger.mem_keys_of_get? (Ledger.get?_sorted.trans hc)
    rw [← hend.flexible_keys] at hmem
    obtain ⟨x, hx⟩ := Ledger.mem_keys_iff.mp hmem
    refine ⟨x, ?_, hend.flexible_admit key x c hx hc⟩
    rw [hrun.categories_eq]
    exact Ledger.get?_merge_right (mandatory_not_mem hend.flexible_keys) hx
  · intro key g hg
    obtain ⟨x, hx⟩ := Ledger.mem_keys_iff.mp
      (hrun.keys_goals.mem_iff.mpr (Ledger.mem_keys_of_get? hg))
    exact ⟨x, hx, hend.goals_admit key x g (hrun.goals_eq ▸ hx) hg⟩

/-- Every amount of the household is within its bounds, with buckets and rounded to sevens. -/
theorem solve_within_bounds_household : ∃ r,
    (bySevens .hybrid).solve household halfway = .ok r ∧
      r.categories.keys.Perm (household.mandatory.keys ++ household.flexible.keys) ∧
      r.goals.keys.Perm household.goals.keys ∧
      r.debts.keys.Perm household.debts.keys ∧
      (∀ key c, household.mandatory.get? key = some c → r.categories.get? key = some c.minimum) ∧
      (∀ key d, household.debts.get? key = some d →
        ∃ payment, r.debts.get? key = some payment ∧ d.Admits .hybrid payment.total) ∧
      (∀ key c, household.flexible.get? key = some c →
        ∃ x, r.categories.get? key = some x ∧ c.minimum ≤ x ∧ (0 < c.maximum → x ≤ c.maximum)) ∧
      ∀ key g, household.goals.get? key = some g →
        ∃ x, r.goals.get? key = some x ∧ 0 ≤ x ∧ x ≤ g.remainingAmount := by
  have hok : ((bySevens .hybrid).solve household halfway).isOk = true := by decide +kernel
  cases hsolve : (bySevens .hybrid).solve household halfway with
  | error fault =>
    rw [hsolve] at hok
    cases hok
  | ok r =>
    refine ⟨r, rfl, solve_within_bounds ?_ (hasSoundLp_bySevens .hybrid) hsolve⟩
    rintro u ⟨⟩
    norm_num

end Allocator

end GoalBudget
