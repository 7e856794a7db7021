import GoalBudget.Deviation.OfBudget
import GoalBudget.Fuzzy.OfBudget
import GoalBudget.Ladder.OfBudget
import GoalBudget.Proofs.Fault.Success
import GoalBudget.Proofs.Ledger.Total
import GoalBudget.Proofs.Strategy.Funds

/-!
# Lower bounds of programs of budgets

A program made from a budget without mandatory expenses and debts has variables for goals, with
lower bound zero, and for flexible categories, with their minimums as lower bounds. A category that
is left out has minimum zero. So in all strategies the lower bounds add up to the flexible minimums.

`GoalProgram.Adds` says of one step, or of many, which lower bounds it adds. It follows the
construction: a variable adds its lower bound, a goal on an existing variable adds nothing, and a
fold over the items of a ledger adds up what its steps add (`adds_foldlM`). There are four ways of
making a program of a budget, with a few lemmas each, and the same total comes out of all four. The
results are `adds_ofBudget`, for the fuzzy strategy and the one with ladders, and
`adds_tiersOfBudget` and `adds_penaltiesOfBudget`.

This is why the feasibility of a budget can be told from its items, without running a strategy.
-/

namespace GoalBudget

/-- The flexible minimums of a budget, all together. -/
def flexibleFloor (b : Budget Rat) : Rat := (b.flexible.map fun _ c => c.minimum).values.sum

theorem sum_minimum_sorted (b : Budget Rat) :
    (b.flexible.sorted.entries.map fun e => e.2.minimum).sum = flexibleFloor b := by
  rw [flexibleFloor, ← Ledger.sum_values_map_sorted, Ledger.values_map]

/-- A variable has the lower bound it was made with. -/
theorem Variable.minimum_make {id name : String} {kind : ItemKind} {minimum maximum : Rat}
    {v : Variable Rat} (h : make id name kind minimum maximum = .ok v) : v.minimum = minimum := by
  unfold make at h
  split at h
  next => cases h
  next =>
    split at h
    next => cases h
    next =>
      cases h
      rfl

/-! ## Steps that add lower bounds -/

namespace GoalProgram

variable {γ : Type} [Scores γ] {p q r : GoalProgram Rat γ} {x y : Rat}

/-- A program becomes another with the same income and with lower bounds added. -/
structure Adds (p q : GoalProgram Rat γ) (x : Rat) : Prop where
  /-- The lower bounds grow by what is added. -/
  minimums : sumOfMinimums q.vars = sumOfMinimums p.vars + x
  /-- The income stays. -/
  income : q.income = p.income

/-- Doing nothing adds nothing. -/
theorem adds_refl (p : GoalProgram Rat γ) : p.Adds p 0 := ⟨(add_zero _).symm, rfl⟩

theorem Adds.trans (h : p.Adds q x) (h' : q.Adds r y) : p.Adds r (x + y) :=
  ⟨by rw [h'.minimums, h.minimums, add_assoc], h'.income.trans h.income⟩

/-- A variable adds its lower bound. -/
theorem adds_addVariable (p : GoalProgram Rat γ) (v : Variable Rat) :
    p.Adds (p.addVariable v) v.minimum :=
  ⟨by simp [addVariable, sumOfMinimums], rfl⟩

/-- A goal on a variable that is there adds nothing. -/
theorem adds_addGoal {index : Int} {goal : Nat → γ} (h : p.addGoal index goal = .ok q) :
    p.Adds q 0 := by
  unfold addGoal at h
  dsimp only at h
  split at h
  next =>
    cases h
    exact ⟨(add_zero _).symm, rfl⟩
  next => cases h

/-- A variable with a goal adds the lower bound of the variable. -/
theorem adds_addItem {v : Variable Rat} {goal : Nat → γ} (h : p.addItem v goal = .ok q) :
    p.Adds q v.minimum := by
  have hadds := (p.adds_addVariable v).trans (adds_addGoal h)
  rwa [add_zero] at hadds

/-- A run of steps adds what they add. -/
theorem adds_foldlM {ε σ : Type} {f : GoalProgram Rat γ → σ → Except ε (GoalProgram Rat γ)}
    {items : List σ} {added : σ → Rat}
    (hstep : ∀ item ∈ items, ∀ p q, f p item = .ok q → p.Adds q (added item))
    (h : items.foldlM f p = .ok q) : p.Adds q (items.map added).sum := by
  induction items generalizing p with
  | nil =>
    rw [List.foldlM_nil, pure_eq_ok] at h
    exact h ▸ adds_refl p
  | cons item rest ih =>
    rw [List.foldlM_cons] at h
    obtain ⟨next, hnext, h⟩ := bind_eq_ok.mp h
    exact (hstep item (List.mem_cons_self ..) p next hnext).trans
      (ih (fun item' hmem => hstep item' (List.mem_cons_of_mem _ hmem)) h)

/-- Steps that add nothing. -/
theorem adds_zero_foldlM {ε σ : Type} {f : GoalProgram Rat γ → σ → Except ε (GoalProgram Rat γ)}
    {items : List σ} (hstep : ∀ item ∈ items, ∀ p q, f p item = .ok q → p.Adds q 0)
    (h : items.foldlM f p = .ok q) : p.Adds q 0 := by
  have hadds := adds_foldlM hstep h
  simpa using hadds

end GoalProgram

variable {b : Budget Rat} {s : Scenario Rat} {key : String}

/-! ## Fuzzy programs -/

namespace FuzzyProgram

variable {p q : FuzzyProgram Rat}

theorem adds_addGoalItem {factor : Rat} {g : Goal Rat} (h : p.addGoalItem factor key g = .ok q) :
    p.Adds q 0 := by
  unfold addGoalItem at h
  dsimp only at h
  split at h
  next =>
    cases h
    exact GoalProgram.adds_refl p
  next =>
    obtain ⟨v, hv, h⟩ := bind_eq_ok.mp h
    obtain ⟨curve, _, h⟩ := bind_eq_ok.mp h
    have hadds := GoalProgram.adds_addItem h
    rwa [Variable.minimum_make hv] at hadds

/-- The amount at which the curve of a flexible category is complete is not below the minimum. -/
theorem minimum_le_complete {c : Category Rat} {level complete : Rat} {curve : Curve Rat}
    (hlevel : 0 ≤ level)
    (h : flexibleCurve c.minimum c.maximum level = .ok (curve, complete)) :
    c.minimum ≤ complete := by
  obtain ⟨made, _, h⟩ := bind_eq_ok.mp h
  have h := congrArg Prod.snd (pure_eq_ok.mp h)
  dsimp only at h
  rw [← h, least_eq_min, le_min_iff]
  have hminimum : 0 ≤ c.minimum := not_lt.mp c.minimum_nonneg
  have hle : c.minimum ≤ if c.maximum ≤ 0 then c.minimum * 3 else c.maximum := by
    split
    next => linarith
    next hmax => exact not_lt.mp fun hlt => c.minimum_le_maximum ⟨not_le.mp hmax, hlt⟩
  generalize (if c.maximum ≤ 0 then c.minimum * 3 else c.maximum) = top at hle
  have htarget := mul_nonneg (sub_nonneg.mpr hle) hlevel
  constructor
  · linarith
  · linarith

/-- A flexible category whose curve is complete at nothing has no minimum. -/
theorem minimum_eq_zero_of_complete {c : Category Rat} {level complete : Rat} {curve : Curve Rat}
    (hlevel : 0 ≤ level)
    (h : flexibleCurve c.minimum c.maximum level = .ok (curve, complete))
    (hcomplete : complete ≤ 0) : c.minimum = 0 :=
  le_antisymm ((minimum_le_complete hlevel h).trans hcomplete) (not_lt.mp c.minimum_nonneg)

/-- A flexible category adds its minimum, also where it is left out as complete. -/
theorem adds_addFlexible {level : Rat} {c : Category Rat} (hlevel : 0 ≤ level)
    (h : p.addFlexible level key c = .ok q) : p.Adds q c.minimum := by
  unfold addFlexible at h
  obtain ⟨⟨curve, complete⟩, hcurve, h⟩ := bind_eq_ok.mp h
  dsimp only at h
  split at h
  next hcomplete =>
    cases h
    rw [minimum_eq_zero_of_complete hlevel hcurve hcomplete]
    exact GoalProgram.adds_refl p
  next =>
    obtain ⟨v, hv, h⟩ := bind_eq_ok.mp h
    have hadds := GoalProgram.adds_addItem h
    rwa [Variable.minimum_make hv] at hadds

/-- The variables of a fuzzy program have the flexible minimums as lower bounds. -/
theorem adds_ofBudget (hmandatory : b.mandatory = ∅) (hdebts : b.debts = ∅)
    (h : ofBudget b s = .ok p) :
    GoalProgram.Adds (.ofIncome b.income) p (0 + flexibleFloor b) := by
  unfold ofBudget at h
  rw [hmandatory, hdebts] at h
  simp only [Ledger.entries_sorted_empty, List.foldlM_nil, pure_bind] at h
  obtain ⟨q, hgoals, hflexible⟩ := bind_eq_ok.mp h
  have hadds := GoalProgram.adds_foldlM
    (fun e _ _ _ hstep => adds_addFlexible s.zero_le_spendingLevel hstep) hflexible
  rw [sum_minimum_sorted] at hadds
  exact (GoalProgram.adds_zero_foldlM (fun _ _ _ _ hstep => adds_addGoalItem hstep) hgoals).trans
    hadds

end FuzzyProgram

/-! ## Programs with ladders -/

namespace LadderProgram

variable {p q : LadderProgram Rat}

/-- A variable with a ladder adds its lower bound. -/
theorem adds_addLadder {v : Variable Rat} {levels : List (Level Rat)} {priority : Int}
    {weight : Rat} {description : String}
    (h : p.addLadder v key levels priority weight description = .ok q) : p.Adds q v.minimum := by
  obtain ⟨sorted, _, h⟩ := bind_eq_ok.mp h
  exact GoalProgram.adds_addItem h

theorem adds_addGoalItem {factor : Rat} {g : Goal Rat} (h : p.addGoalItem factor key g = .ok q) :
    p.Adds q 0 := by
  unfold addGoalItem at h
  dsimp only at h
  split at h
  next =>
    cases h
    exact GoalProgram.adds_refl p
  next =>
    obtain ⟨v, hv, h⟩ := bind_eq_ok.mp h
    have hadds := adds_addLadder h
    rwa [Variable.minimum_make hv] at hadds

/-- A flexible category adds its minimum. -/
theorem adds_addFlexible {c : Category Rat} (h : p.addFlexible key c = .ok q) :
    p.Adds q c.minimum := by
  have hminimum : 0 ≤ c.minimum := not_lt.mp c.minimum_nonneg
  -- A maximum that is set is positive, so a category is left out only without one.
  have hzero : (if 0 < c.maximum then c.maximum else c.minimum * 1.5) ≤ 0 → c.minimum = 0 := by
    split
    next hmax => exact fun hle => absurd hmax (not_lt.mpr hle)
    next =>
      intro hle
      linarith
  unfold addFlexible at h
  dsimp only at h
  generalize (if 0 < c.maximum then c.maximum else c.minimum * 1.5) = top at h hzero
  split at h
  next hnone =>
    cases h
    rw [hzero hnone]
    exact GoalProgram.adds_refl p
  next =>
    obtain ⟨v, hv, h⟩ := bind_eq_ok.mp h
    have hadds := adds_addLadder h
    rwa [Variable.minimum_make hv] at hadds

/-- The variables of a program with ladders have the flexible minimums as lower bounds. -/
theorem adds_ofBudget (hmandatory : b.mandatory = ∅) (hdebts : b.debts = ∅)
    (h : ofBudget b s = .ok p) :
    GoalProgram.Adds (.ofIncome b.income) p (0 + flexibleFloor b) := by
  unfold ofBudget at h
  rw [hmandatory, hdebts] at h
  simp only [Ledger.entries_sorted_empty, List.foldlM_nil, pure_bind] at h
  obtain ⟨q, hgoals, hflexible⟩ := bind_eq_ok.mp h
  have hadds := GoalProgram.adds_foldlM (fun e _ _ _ hstep => adds_addFlexible hstep) hflexible
  rw [sum_minimum_sorted] at hadds
  exact (GoalProgram.adds_zero_foldlM (fun _ _ _ _ hstep => adds_addGoalItem hstep) hgoals).trans
    hadds

end LadderProgram

/-! ## Programs with targets -/

namespace DeviationProgram

variable {p q : DeviationProgram Rat}

theorem adds_tierFlexible {level : Rat} {c : Category Rat}
    (h : p.tierFlexible level key c = .ok q) : p.Adds q c.minimum := by
  obtain ⟨v, hv, h⟩ := bind_eq_ok.mp h
  have hadds := GoalProgram.adds_addItem h
  rwa [Variable.minimum_make hv] at hadds

theorem adds_penalizeFlexible {level : Rat} {c : Category Rat}
    (h : p.penalizeFlexible level key c = .ok q) : p.Adds q c.minimum := by
  obtain ⟨v, hv, h⟩ := bind_eq_ok.mp h
  have hadds := GoalProgram.adds_addItem h
  rwa [Variable.minimum_make hv] at hadds

theorem adds_penalizeGoal {factor : Rat} {g : Goal Rat}
    (h : p.penalizeGoal factor key g = .ok q) : p.Adds q 0 := by
  unfold penalizeGoal at h
  dsimp only at h
  split at h
  next =>
    cases h
    exact GoalProgram.adds_refl p
  next =>
    obtain ⟨v, hv, h⟩ := bind_eq_ok.mp h
    have hadds := GoalProgram.adds_addItem h
    rwa [Variable.minimum_make hv] at hadds

/-- A savings goal adds a variable without a lower bound, or nothing where it is complete. -/
theorem adds_draftGoal {factor : Rat} {g : Goal Rat} {d d' : Draft Rat}
    (h : draftGoal factor d key g = .ok d') : d.program.Adds d'.program 0 := by
  unfold draftGoal at h
  dsimp only at h
  split at h
  next =>
    cases h
    exact GoalProgram.adds_refl _
  next =>
    obtain ⟨v, hv, h⟩ := bind_eq_ok.mp h
    obtain ⟨tier, _, h⟩ := bind_eq_ok.mp h
    cases h
    have hadds := d.program.adds_addVariable v
    rwa [Variable.minimum_make hv] at hadds

/-- The variables of a program with penalties have the flexible minimums as lower bounds. -/
theorem adds_penaltiesOfBudget (hmandatory : b.mandatory = ∅) (hdebts : b.debts = ∅)
    (h : penaltiesOfBudget b s = .ok p) :
    GoalProgram.Adds (.ofIncome b.income) p (0 + flexibleFloor b) := by
  unfold penaltiesOfBudget at h
  rw [hmandatory, hdebts] at h
  simp only [Ledger.entries_sorted_empty, List.foldlM_nil, pure_bind] at h
  obtain ⟨q, hgoals, hflexible⟩ := bind_eq_ok.mp h
  have hadds := GoalProgram.adds_foldlM (fun e _ _ _ hstep => adds_penalizeFlexible hstep) hflexible
  rw [sum_minimum_sorted] at hadds
  exact (GoalProgram.adds_zero_foldlM (fun _ _ _ _ hstep => adds_penalizeGoal hstep) hgoals).trans
    hadds

/-- Goals are drafted with their variables and added behind all of them, which changes no bound. -/
theorem adds_tiersOfBudget (hmandatory : b.mandatory = ∅) (hdebts : b.debts = ∅)
    (h : tiersOfBudget b s = .ok p) :
    GoalProgram.Adds (.ofIncome b.income) p (0 + flexibleFloor b) := by
  unfold tiersOfBudget at h
  rw [hmandatory, hdebts] at h
  simp only [Ledger.entries_sorted_empty, List.foldlM_nil, List.zipIdx_nil, pure_bind] at h
  obtain ⟨d, hdraft, h⟩ := bind_eq_ok.mp h
  obtain ⟨q, hgoals, hflexible⟩ := bind_eq_ok.mp h
  have hdrafted : GoalProgram.Adds (.ofIncome b.income) d.program 0 := by
    refine foldlM_invariant
      (fun d : Draft Rat => GoalProgram.Adds (.ofIncome b.income) d.program 0) ?_
      (GoalProgram.adds_refl _) hdraft
    intro e _ d d' hd hstep
    have hadds := hd.trans (adds_draftGoal hstep)
    rwa [add_zero] at hadds
  have hadded := hdrafted.trans
    (GoalProgram.adds_zero_foldlM (fun _ _ _ _ hstep => GoalProgram.adds_addGoal hstep) hgoals)
  rw [add_zero] at hadded
  have hadds := GoalProgram.adds_foldlM (fun e _ _ _ hstep => adds_tierFlexible hstep) hflexible
  rw [sum_minimum_sorted] at hadds
  exact hadded.trans hadds

end DeviationProgram

/-- What all strategies make of the check of the minimums: the flexible minimums fit into the
income. -/
theorem flexibleFloor_le_of_adds {γ : Type} [Scores γ] {p : GoalProgram Rat γ}
    (hadds : GoalProgram.Adds (.ofIncome b.income) p (0 + flexibleFloor b))
    (h : p.vars = [] ∨ checkMinimums p.vars p.income = .ok ()) :
    flexibleFloor b ≤ b.income + deviationTolerance := by
  have hincome : p.income = b.income := hadds.income
  have hsum : sumOfMinimums p.vars = flexibleFloor b := by
    rw [hadds.minimums]
    simp [GoalProgram.ofIncome, sumOfMinimums]
  rcases h with hnil | hcheck
  -- without variables there are no flexible categories, so there is no floor
  · have hnonneg : 0 ≤ b.income := not_lt.mp b.income_nonneg
    have hzero : flexibleFloor b = 0 := by
      rw [← hsum, hnil]
      rfl
    have htolerance : (0 : Rat) ≤ deviationTolerance := by norm_num [deviationTolerance]
    rw [hzero]
    exact add_nonneg hnonneg htolerance
  · unfold checkMinimums at hcheck
    split at hcheck
    next => cases hcheck
    next hle =>
      rw [hincome, hsum] at hle
      exact not_lt.mp hle

end GoalBudget
