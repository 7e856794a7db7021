import GoalBudget.Bucket.Hybrid
import GoalBudget.Deviation.OfBudget
import GoalBudget.Fuzzy.OfBudget
import GoalBudget.Ladder.OfBudget
import GoalBudget.Proofs.Budget.Order

/-!
# The order of items in the strategies

Every strategy takes the items of each ledger by ascending id, so that budgets with the same items
have the same program, and the same buckets. Section 9 of the specification asks for it: an
iteration that affects the order of allocation has to be over sorted keys.

Four of the strategies make one program of a budget and then look at nothing else. The hybrid
strategy works with the budget in two phases, so it has two results here, one for each.
-/

namespace GoalBudget

variable {b c : Budget Rat} (h : b.Reordered c) (s : Scenario Rat)
include h

/-- The fuzzy program of a budget does not depend on the order of the items. -/
theorem FuzzyProgram.ofBudget_reordered : ofBudget b s = ofBudget c s := by
  unfold ofBudget
  rw [h.income, h.mandatory.sorted_eq, h.flexible.sorted_eq, h.debts.sorted_eq,
    h.goals.sorted_eq]

theorem LadderProgram.ofBudget_reordered : ofBudget b s = ofBudget c s := by
  unfold ofBudget
  rw [h.income, h.mandatory.sorted_eq, h.flexible.sorted_eq, h.debts.sorted_eq,
    h.goals.sorted_eq]

theorem DeviationProgram.tiersOfBudget_reordered : tiersOfBudget b s = tiersOfBudget c s := by
  unfold tiersOfBudget
  rw [h.income, h.mandatory.sorted_eq, h.flexible.sorted_eq, h.debts.sorted_eq,
    h.goals.sorted_eq]

theorem DeviationProgram.penaltiesOfBudget_reordered :
    penaltiesOfBudget b s = penaltiesOfBudget c s := by
  unfold penaltiesOfBudget
  rw [h.income, h.mandatory.sorted_eq, h.flexible.sorted_eq, h.debts.sorted_eq,
    h.goals.sorted_eq]

namespace Hybrid

theorem firstPhase_reordered : mandatoryMinimums b = mandatoryMinimums c ∧
    debtMinimums b = debtMinimums c ∧ flexibleMinimums b = flexibleMinimums c := by
  unfold mandatoryMinimums debtMinimums flexibleMinimums
  rw [h.mandatory.sorted_eq, h.flexible.sorted_eq, h.debts.sorted_eq]
  exact ⟨rfl, rfl, rfl⟩

theorem buckets_reordered (surplus : Rat) : buckets b s surplus = buckets c s surplus := by
  unfold buckets goalItems
  rw [h.flexible.sorted_eq, h.debts.sorted_eq, h.goals.sorted_eq]

theorem solve_reordered : solve b s = solve c s := by
  obtain ⟨hmandatory, hdebts, hflexible⟩ := firstPhase_reordered h
  have htotal : phase1Total b = phase1Total c := by
    rw [phase1Total, phase1Total, hmandatory, hdebts, hflexible]
  have hrewarded : rewardedDetails b = rewardedDetails c := by
    rw [rewardedDetails, rewardedDetails, hmandatory, h.debts.sorted_eq]
  have hfirst : firstDetails b = firstDetails c := by
    rw [firstDetails, firstDetails, hrewarded, hflexible]
  unfold solve
  simp only [htotal, hrewarded, hfirst, hmandatory, hdebts, hflexible, h.income,
    buckets_reordered h]

end Hybrid

end GoalBudget
