import GoalBudget.Proofs.Budget.Changed
import GoalBudget.Proofs.Ledger.Order
import GoalBudget.Review.Advice

/-!
# The order of the items of a budget

Two budgets can have the same items, entered in different orders (`Budget.Reordered`). Whatever is
read of a budget as a whole is the same for both: what is committed, what is left, and what there is
to advise. Changing the income or a goal of both leaves them two orders of the same items.

The lemmas here are the parts of budgets; that strategies, passes and reviews make the same of both
follows in the modules on their order.
-/

namespace GoalBudget.Budget

/-- Whether two budgets have the same income and the same items, in whatever order. -/
structure Reordered (b c : Budget Rat) : Prop where
  income : b.income = c.income
  mandatory : b.mandatory.Reordered c.mandatory
  flexible : b.flexible.Reordered c.flexible
  debts : b.debts.Reordered c.debts
  goals : b.goals.Reordered c.goals

namespace Reordered

variable {b c : Budget Rat} (h : b.Reordered c)
include h

/-! ## What is read of a budget -/

theorem committed_eq : b.committed = c.committed := by
  rw [committed, committed, total_eq_sum, total_eq_sum, total_eq_sum, total_eq_sum,
    h.mandatory.sum_values_map, h.debts.sum_values_map]

theorem shortfall?_eq : b.shortfall? = c.shortfall? := by
  rw [shortfall?, shortfall?, h.income, h.committed_eq]

theorem surplus_eq : b.surplus = c.surplus := by
  rw [surplus, surplus, h.income, h.committed_eq]

theorem hasExpensiveDebt_eq : b.hasExpensiveDebt = c.hasExpensiveDebt :=
  h.debts.values.any_eq

theorem hasEmergencyFund_eq : b.hasEmergencyFund = c.hasEmergencyFund :=
  h.goals.values.any_eq

/-- What to do about a shortfall: the categories to cut are listed by ascending id. -/
theorem remedies_eq (deficit : Rat) : b.remedies deficit = c.remedies deficit := by
  have hreducible : b.reducible = c.reducible := by
    rw [reducible, reducible, h.flexible.sorted_eq]
  rw [remedies, remedies, hreducible, h.hasExpensiveDebt_eq]

theorem concerns_eq (p : Preset) (summary : Option (Summary Rat)) :
    p.concerns b summary = p.concerns c summary := by
  cases p with
  | conservative => rw [Preset.concerns, Preset.concerns, h.hasEmergencyFund_eq]
  | balanced => rw [Preset.concerns, Preset.concerns, h.hasExpensiveDebt_eq]
  | aggressive => rfl

/-! ## Changes of both -/

/-- The goal of an id changed in both. -/
theorem modifyGoal (id : String) (f : Goal Rat → Goal Rat) :
    (b.modifyGoal id f).Reordered (c.modifyGoal id f) :=
  ⟨h.income, h.mandatory, h.flexible, h.debts, h.goals.modify id f⟩

/-- What is done with the budgets after a change of income is the same if it is for all budgets
of the same items. -/
theorem withIncome_bind {τ : Type} {f g : Budget Rat → Except (Fault Rat) τ} (income : Rat)
    (hfg : ∀ b' c', b'.Reordered c' → f b' = g c') :
    b.withIncome income >>= f = c.withIncome income >>= g := by
  by_cases hincome : 0 ≤ income
  · rw [b.withIncome_eq hincome, c.withIncome_eq hincome]
    exact hfg _ _ ⟨rfl, h.mandatory, h.flexible, h.debts, h.goals⟩
  · rw [b.withIncome_of_neg (not_le.mp hincome), c.withIncome_of_neg (not_le.mp hincome)]
    rfl

end Reordered

end GoalBudget.Budget
