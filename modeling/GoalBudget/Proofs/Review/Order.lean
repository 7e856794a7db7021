import GoalBudget.Proofs.Allocation.Order
import GoalBudget.Review.Report

/-!
# The order of items in a review

What is said about an allocation is read of the budget by id or in sorted order as well. So neither
an allocation nor the prospects of a budget nor its sensitivity depend on the order in which the
items were entered. A fault is the same, too: which check fails first is decided by sorted ids.

Changing the income or a weight of two budgets with the same items gives two budgets with the same
items again, which is how the statement goes from one allocation to all those of a review.

Main result: `review_reordered`.
-/

namespace GoalBudget

section
variable {b c : Budget Rat} (h : b.Reordered c)
include h

/-! ## Summaries -/

theorem Allocation.summary_reordered (r : Allocation Rat) : r.summary b = r.summary c := by
  simp only [summary, sumWithin, h.mandatory.contains_eq, h.flexible.contains_eq, h.income]

theorem Shift.between_reordered {b' c' : Budget Rat} (h' : b'.Reordered c')
    (before after : Allocation Rat) (change : Rat) :
    between b b' before after change = between c c' before after change := by
  simp only [between, before.summary_reordered h, after.summary_reordered h', sufferingGoals,
    h.goals.get?_eq]

theorem Exposure.ofImpacts_reordered (income : List (IncomeImpact Rat))
    (rates : List (RateImpact Rat)) (weights : List (WeightImpact Rat)) :
    ofImpacts b income rates weights = ofImpacts c income rates weights := by
  rw [ofImpacts, ofImpacts, h.income, h.committed_eq]

theorem Budget.rateImpact_reordered (change : Rat) : b.rateImpact change = c.rateImpact change := by
  rw [rateImpact, rateImpact, h.debts.sorted_eq]

/-! ## Reviews -/

namespace Allocator

variable (a : Allocator Rat)

theorem prospect_reordered (name : String) : a.prospect b name = a.prospect c name := by
  simp only [prospect, h.shortfall?_eq, h.remedies_eq, h.concerns_eq, a.allocation_reordered h,
    Allocation.summary_reordered h]

theorem incomeImpact_reordered (s : Scenario Rat) (before : Allocation Rat) (change : Rat) :
    a.incomeImpact b s before change = a.incomeImpact c s before change := by
  unfold incomeImpact
  rw [h.income]
  refine h.withIncome_bind _ fun b' c' h' => ?_
  simp only [h'.shortfall?_eq, h'.income, a.allocation_reordered h',
    Shift.between_reordered h h']

theorem weightImpacts_reordered (s : Scenario Rat) (before : Allocation Rat) :
    a.weightImpacts b s before = a.weightImpacts c s before := by
  have hweighted : b.weightedGoals = c.weightedGoals := by
    rw [Budget.weightedGoals, Budget.weightedGoals, h.goals.sorted_eq]
  have hraise (id : String) : a.solve (b.raiseGoal id) s = a.solve (c.raiseGoal id) s :=
    a.allocation_reordered (h.modifyGoal id _) s
  have hlower (id : String) : a.solve (b.lowerGoal id) s = a.solve (c.lowerGoal id) s :=
    a.allocation_reordered (h.modifyGoal id _) s
  simp only [weightImpacts, weightImpact, goalAmount, hweighted, hraise, hlower]

theorem sensitivity_reordered (s : Scenario Rat) (incomeChanges rateChanges : List Rat) :
    a.sensitivity b s incomeChanges rateChanges = a.sensitivity c s incomeChanges rateChanges := by
  have hincome (before : Allocation Rat) :
      a.incomeImpact b s before = a.incomeImpact c s before :=
    funext (a.incomeImpact_reordered h s before)
  have hrates : b.rateImpact = c.rateImpact := funext (Budget.rateImpact_reordered h)
  simp only [sensitivity, h.shortfall?_eq, a.allocation_reordered h, hincome, hrates,
    a.weightImpacts_reordered h, Exposure.ofImpacts_reordered h]

/-- Two budgets with the same items lead to the same allocation, the same prospects and the same
sensitivity, or to the same fault, with everything in the same order. -/
theorem review_reordered (s : Scenario Rat) (names : List String)
    (incomeChanges rateChanges : List Rat) :
    a.solve b s = a.solve c s ∧ a.prospects b names = a.prospects c names ∧
      a.sensitivity b s incomeChanges rateChanges =
        a.sensitivity c s incomeChanges rateChanges := by
  refine ⟨a.allocation_reordered h s, ?_, a.sensitivity_reordered h s incomeChanges rateChanges⟩
  have hprospect : a.prospect b = a.prospect c := funext (a.prospect_reordered h)
  rw [prospects, prospects, hprospect]

end Allocator

end

namespace Allocator

/-- A goal that only its id tells apart from others of its kind. -/
def rival (id : String) : Goal Rat :=
  ⟨id, id, 110, 420, "travel", .high, 6, by decide, by decide, by decide⟩

/-- A flexible category that only its id tells apart from others of its kind. -/
def habit (id : String) : Category Rat :=
  ⟨id, 30, 210, true, 2, by decide, by decide, by decide⟩

/-- A household with two rivals and two habits, which cannot have all that they ask for. -/
def tripFirst : Budget Rat :=
  { household with
    flexible := ⟨[("food", habit "food"), ("fun", habit "fun")], by decide⟩
    goals := ⟨[("trip", rival "trip"), ("bike", rival "bike")], by decide⟩
    ids_distinct := by decide }

/-- The same household with its items entered the other way round. -/
def bikeFirst : Budget Rat :=
  { household with
    flexible := ⟨[("fun", habit "fun"), ("food", habit "food")], by decide⟩
    goals := ⟨[("bike", rival "bike"), ("trip", rival "trip")], by decide⟩
    ids_distinct := by decide }

/-- A household entered with the trip first, and with the bike first. -/
theorem review_reordered_household : tripFirst.Reordered bikeFirst ∧
    tripFirst.goals.keys ≠ bikeFirst.goals.keys ∧
    (∃ r, (bySevens .fuzzy).solve tripFirst halfway = .ok r ∧
      (bySevens .fuzzy).solve bikeFirst halfway = .ok r) ∧
    (bySevens .fuzzy).prospects tripFirst Preset.names =
      (bySevens .fuzzy).prospects bikeFirst Preset.names ∧
    (bySevens .fuzzy).sensitivity tripFirst halfway [-0.2, 0.1] [2] =
      (bySevens .fuzzy).sensitivity bikeFirst halfway [-0.2, 0.1] [2] := by
  have hreordered : tripFirst.Reordered bikeFirst :=
    ⟨rfl, .refl _, .swap _ _ _, .refl _, .swap _ _ _⟩
  obtain ⟨hsolve, hprospects, hsensitivity⟩ := review_reordered hreordered (bySevens .fuzzy)
    halfway Preset.names [-0.2, 0.1] [2]
  refine ⟨hreordered, by decide, ?_, hprospects, hsensitivity⟩
  have hunit : ∀ u ∈ (bySevens .fuzzy).roundingUnit, 0 < u := by
    rintro u ⟨⟩
    norm_num
  have hcovered : tripFirst.shortfall? = none := by decide +kernel
  have hfloor : checkFloor tripFirst (tripFirst.income - tripFirst.committed) = .ok () :=
    if_neg (by decide +kernel)
  have hbackends : AnswersAsScripted (bySevens .fuzzy).backends := by
    rintro n backend ⟨⟩
  obtain ⟨r, hr⟩ := (solve_decided (by decide) hunit (fun _ => hbackends) hcovered).result hfloor
  exact ⟨r, hr, hsolve.symm.trans hr⟩

end Allocator

end GoalBudget
