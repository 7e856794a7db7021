import GoalBudget.Proofs.Fault.Success
import GoalBudget.Proofs.Ledger.Lookup
import GoalBudget.Proofs.Number.Exact
import GoalBudget.Review.WeightImpact

/-!
# Budgets with one thing changed

A sensitivity report asks what becomes of a budget when one thing about it is different: the
income, or the priority weight of one goal. Both changes leave everything else alone.

Changing the income runs the checks of a budget again. The items are those of a budget, so only an
income below zero fails (`withIncome_eq`, `withIncome_of_neg`). Changing a weight cannot fail;
raising and lowering a goal are cases of it (`raiseGoal_eq`, `lowerGoal_eq`).
-/

namespace GoalBudget

namespace Budget

variable {b : Budget Rat} {id : String} {g : Goal Rat}

/-! ## Another income -/

section
variable (b) {income : Rat}

/-- The budget with an income that is not negative. -/
def earning (income : Rat) (h : 0 ≤ income) : Budget Rat :=
  { b with income, income_nonneg := not_lt.mpr h }

/-- An income that is not negative passes the checks, as the items have passed them before. -/
theorem withIncome_eq (h : 0 ≤ income) : b.withIncome income = .ok (b.earning income h) := by
  unfold withIncome make requireNonNegative
  rw [dif_neg (not_lt.mpr h)]
  refine bind_eq_ok.mpr ⟨_, rfl, ?_⟩
  dsimp only
  split
  next ids hshared => cases hshared.symm.trans b.ids_distinct
  next => rfl

/-- A negative income is refused, by the check of that field. -/
theorem withIncome_of_neg (h : income < 0) :
    b.withIncome income = .error (.negative .budgetTotalIncome income) := by
  unfold withIncome make requireNonNegative
  rw [dif_pos h]
  rfl

end

/-! ## Another priority weight -/

/-- The budget with another priority weight for one goal. -/
def reweigh (b : Budget Rat) (id : String) (weight : Int) (h : 0 ≤ weight) : Budget Rat :=
  b.modifyGoal id fun g => g.withWeight weight h

/-- The goal in question has the new weight, and every other goal is as it was. -/
theorem get?_reweigh {weight : Int} {h : 0 ≤ weight} {key : String} :
    (b.reweigh id weight h).goals.get? key =
      (b.goals.get? key).map fun g => if key = id then g.withWeight weight h else g :=
  Ledger.get?_modify ..

theorem modifyGoal_congr {f f' : Goal Rat → Goal Rat} (hg : b.goals.get? id = some g)
    (h : f g = f' g) : b.modifyGoal id f = b.modifyGoal id f' := by
  unfold modifyGoal
  congr 1
  exact Ledger.modify_congr hg h

theorem raiseGoal_eq (hg : b.goals.get? id = some g) :
    b.raiseGoal id = b.reweigh id (raisedWeight g.priorityWeight) (raisedWeight_nonneg _) :=
  modifyGoal_congr hg rfl

/-- Lowering a goal is giving it the lowered weight. -/
theorem lowerGoal_eq (hg : b.goals.get? id = some g) : b.lowerGoal id =
    b.reweigh id (loweredWeight g.priorityWeight) (loweredWeight_nonneg g.priorityWeight_nonneg) :=
  modifyGoal_congr hg rfl

end Budget

end GoalBudget
