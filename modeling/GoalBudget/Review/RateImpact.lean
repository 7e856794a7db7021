import GoalBudget.Budget.Basic
import GoalBudget.Text.Decimal

/-!
# Changes of interest rates

What happens when all interest rates rise by some points (the second part of the sensitivity
analysis in section 10.5 of the specification). Rates end at one hundred percent. A debt belongs to
a tier by its rate; when one moves to a more urgent tier, the order of paying debts changes.

Nothing is allocated for this: the impact is computed from rates and balances (`Debt.rateImpact`).
What a rise costs in a month is a twelfth of the difference of the rates on the balance. The tiers
begin at five, ten and twenty percent (`interestTier`), and a smaller number is more urgent.

The cap is applied to the new rate whatever the old one was, so a rate above a hundred percent falls
to it.
-/

namespace GoalBudget

/-- The impact of a rise of interest rates on one debt. -/
structure DebtImpact (α : Type) where
  id : String
  name : String
  oldRate : α
  newRate : α
  /-- What the difference costs in a month. -/
  monthlyInterest : α
  oldTier : Int
  newTier : Int
  deriving Repr

/-- The impact of a rise of interest rates on all debts. -/
structure RateImpact (α : Type) where
  /-- The rise in percentage points. -/
  change : α
  /-- The impact on every debt. -/
  debts : List (DebtImpact α)
  /-- What the differences cost together in a month. -/
  monthlyInterest : α
  deriving Repr

variable {α : Type} [Scalar α]

/-- The tier of a debt by its annual interest in percent; smaller is more urgent. -/
def interestTier (rate : α) : Int :=
  if 20 ≤ rate then 1 else if 10 ≤ rate then 10 else if 5 ≤ rate then 20 else 30

/-- The impact of a rise of interest rates on a debt. -/
def Debt.rateImpact (change : α) (id : String) (d : Debt α) : DebtImpact α :=
  let newRate := least (d.interestRate + change) 100
  { id
    name := d.name
    oldRate := d.interestRate
    newRate
    monthlyInterest := d.currentBalance * (newRate - d.interestRate) / 100 / 12
    oldTier := interestTier d.interestRate
    newTier := interestTier newRate }

/-- The impact of a rise of interest rates on the debts of a budget, by ascending id. -/
def Budget.rateImpact (b : Budget α) (change : α) : RateImpact α :=
  let debts := b.debts.sorted.entries.map fun e => e.2.rateImpact change e.1
  ⟨change, debts, total (debts.map (·.monthlyInterest))⟩

namespace RateImpact

/-- Whether some debt moves to a more urgent tier. -/
def changesOrder {β : Type} (r : RateImpact β) : Bool := r.debts.any fun d => d.newTier < d.oldTier

/-- What to do about it, in words. -/
def recommendation (r : RateImpact Float) : String :=
  if r.changesOrder then
    "Rate increase of " ++ Text.fixedText 0 r.change ++ " points changes debt priorities. " ++
      "Consider reallocating extra payments to higher-rate debts."
  else if 100 < r.monthlyInterest then
    "Rate increase adds " ++ Text.fixedText 2 r.monthlyInterest ++
      "/month in interest. Consider increasing debt payments or refinancing."
  else "Rate increase has minimal impact on current strategy."

end RateImpact

end GoalBudget
