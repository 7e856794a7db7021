import GoalBudget.Review.IncomeImpact
import GoalBudget.Review.RateImpact
import GoalBudget.Review.WeightImpact

/-!
# Sensitivity

How exposed a budget is to changes of income, interest rates and priorities: the sensitivity
analysis of section 10.5 of the specification. The report lists all impacts; its summary adds up
points of risk and says what to do.

The points are three for being sensitive to income, two for debts at risk in the first rise of rates
that was tried, and two for less than a tenth of the income left after the commitments. Five make a
high risk, three a medium one (`Exposure.ofImpacts`). A budget is sensitive to income if a cut of
ten percent or less is too much, with a billionth of leeway in the size of the cut.

Before anything else the commitments are checked and the budget is allocated; both can fail, and so
can every allocation with another income or another weight (`Allocator.sensitivity`). No fault is
turned into an impact here: that an income is too low for the commitments is an impact, everything
else a fault.
-/

namespace GoalBudget

/-- One piece of advice on an exposed budget. -/
inductive Recommendation where
  /-- The income may shrink. -/
  | buildReserve
  /-- Some debts may become expensive. -/
  | payDown (debts : List String)
  /-- There is hardly any room. -/
  | makeRoom
  /-- Some goals depend on their priority. -/
  | reviewGoals (goals : List String)
  deriving Repr

/-- The text of a piece of advice. -/
def Recommendation.text : Recommendation → String
  | buildReserve =>
    "Build emergency fund to at least 3 months of expenses to buffer income volatility"
  | payDown debts =>
    "Consider refinancing or paying down high-risk debts: " ++ ", ".intercalate debts
  | makeRoom =>
    "Current allocation has low margin for error. Consider reducing flexible expenses or " ++
      "increasing income"
  | reviewGoals goals =>
    "Goals " ++ ", ".intercalate goals ++
      " are most sensitive to priority changes - review their importance"

/-- How exposed a budget is. -/
structure Exposure (α : Type) where
  /-- Whether a cut of ten percent or less is too much. -/
  isIncomeSensitive : Bool
  /-- The income that just covers the commitments. -/
  breakEven : α
  /-- The names of the debts that a rise of rates makes expensive. -/
  highRiskDebts : List String
  /-- The names of the goals that react strongly to their priority. -/
  flexibleGoals : List String
  /-- How exposed the budget is altogether. -/
  risk : Grade
  deriving Repr

/-- Everything about the sensitivity of a budget. -/
structure Sensitivity (α : Type) where
  /-- The impact of changes of income. -/
  income : List (IncomeImpact α)
  /-- The impact of changes of interest rates. -/
  rates : List (RateImpact α)
  /-- The impact of changes of priority weights. -/
  weights : List (WeightImpact α)
  /-- How exposed the budget is. -/
  exposure : Exposure α
  deriving Repr

namespace Exposure

/-- What to do about it. -/
def recommendations {α : Type} (e : Exposure α) : List Recommendation :=
  (if e.isIncomeSensitive then [.buildReserve] else []) ++
    (if e.highRiskDebts.isEmpty then [] else [.payDown e.highRiskDebts]) ++
    (if e.risk = .high then [.makeRoom] else []) ++
    (if e.flexibleGoals.isEmpty then [] else [.reviewGoals e.flexibleGoals])

variable {α : Type} [Scalar α]

/-- Whether a change is a cut of ten percent or less, with a billionth of leeway. -/
def isSmallCut (change : α) : Bool := -0.1 - 1e-9 ≤ change && change < 0

/-- The names of the debts that cost more than 50 a month more. -/
def highRisk (r : RateImpact α) : List String :=
  (r.debts.filter fun d => 50 < d.monthlyInterest).map (·.name)

/-- The grade of a number of points. -/
def gradeOf (points : Nat) : Grade :=
  if 5 ≤ points then .high else if 3 ≤ points then .medium else .low

/-- How exposed a budget is, by the impacts on it: three points for being sensitive to income,
two for debts at risk in the first rise of rates, two for less than a tenth of the income left
after the commitments. -/
def ofImpacts (b : Budget α) (income : List (IncomeImpact α)) (rates : List (RateImpact α))
    (weights : List (WeightImpact α)) : Exposure α :=
  let isIncomeSensitive := income.any fun i => isSmallCut i.change && !i.isFeasible
  let highRiskDebts := rates.head?.elim [] highRisk
  let isTight : Bool := b.income - b.committed < b.income * 0.1
  { isIncomeSensitive
    breakEven := b.committed
    highRiskDebts
    flexibleGoals := (weights.filter fun w => w.sensitivity == .high).map (·.name)
    risk :=
      gradeOf ((if isIncomeSensitive then 3 else 0) + (if highRiskDebts.isEmpty then 0 else 2) +
        (if isTight then 2 else 0)) }

end Exposure

namespace Sensitivity

variable {α : Type} [Scalar α]

/-- The changes of income to try where none are given. -/
def incomeChanges : List α := [-0.2, -0.1, 0.1, 0.2]

/-- The rises of interest rates to try where none are given. -/
def rateChanges : List α := [2, 5]

end Sensitivity

/-- The sensitivity of a budget in a scenario. -/
def Allocator.sensitivity {α : Type} [Scalar α] (a : Allocator α) (b : Budget α) (s : Scenario α)
    (incomeChanges rateChanges : List α) : Except (Fault α) (Sensitivity α) := do
  if let some deficit := b.shortfall? then throw (.infeasibleMinimums deficit)
  let before ← a.solve b s
  let income ← incomeChanges.mapM (a.incomeImpact b s before)
  let rates := rateChanges.map b.rateImpact
  let weights ← a.weightImpacts b s before
  return ⟨income, rates, weights, .ofImpacts b income rates weights⟩

end GoalBudget
