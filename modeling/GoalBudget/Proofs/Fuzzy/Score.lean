import GoalBudget.Allocation.Proposal
import GoalBudget.Proofs.Curve.Monotone
import GoalBudget.Proofs.Curve.Profile
import GoalBudget.Proofs.Fuzzy.Outcome

/-!
# The score of the fuzzy strategy

Whatever the item, its goal has a regular curve and a weight that is not negative
(`wellPosed_ofBudget`). So no satisfaction is negative, nor their mean by weight. The mean can
exceed one, as curves of flexible spending and sigmoids do; the score counts no more than one of it.

Of the three means the score uses that by weight only. It is a quotient, zero where no goal has
weight, so nothing has to be known about whether there are goals at all.

Main result: `score_between`.
-/

namespace GoalBudget

theorem Curve.Regular.degree_nonneg {c : Curve Rat} (h : c.Regular) (x : Rat) : 0 ≤ c.degree x := by
  cases h with
  | linear h => exact (ascends_linear h).nonneg x
  | triangular h => exact (peaks_triangular h).nonneg x
  | trapezoidal h => exact (peaks_trapezoidal h).nonneg x
  | sCurve hle h =>
    obtain ⟨_, _, _, _, hascends⟩ := ascendsAlong_sCurve hle h
    exact hascends.nonneg x
  | throughPoints hnonneg hrises h =>
    obtain ⟨_, _, _, _, hascends⟩ := ascendsAlong_throughPoints hnonneg hrises h
    exact hascends.nonneg x

/-- A goal that no amount counts against. -/
structure FuzzyGoal.WellPosed (g : FuzzyGoal Rat) : Prop where
  curve : g.curve.Regular
  weight_nonneg : 0 ≤ g.weight

theorem goalWeight_nonneg (priorityWeight : Int) (isEmergency : Bool) :
    (0 : Rat) ≤ goalWeight priorityWeight isEmergency := by
  unfold goalWeight
  split_ifs <;> norm_num

theorem flexibleWeight_nonneg (priority : Int) : (0 : Rat) ≤ flexibleWeight priority := by
  unfold flexibleWeight
  split_ifs <;> norm_num

/-- The curve of flexible spending goes through anchors whose satisfactions rise. -/
theorem regular_flexibleCurve {minimum maximum level complete : Rat} {c : Curve Rat}
    (h : flexibleCurve minimum maximum level = .ok (c, complete)) : c.Regular := by
  obtain ⟨c', hthrough, hc⟩ := bind_eq_ok.mp h
  obtain rfl : c' = c := (Prod.mk.inj (pure_eq_ok.mp hc)).1
  refine .throughPoints ?_ ?_ hthrough
  · norm_num [flexibleTiers]
  · norm_num [flexibleTiers]

theorem Goal.target_nonneg (g : Goal Rat) {factor : Rat} (h : 0 ≤ factor) : 0 ≤ g.target factor :=
  mul_nonneg (not_lt.mp g.suggestedContribution_nonneg) h

namespace FuzzyProgram

variable {p q : FuzzyProgram Rat} {b : Budget Rat} {s : Scenario Rat} {key : String}
  {solution : List Rat} {method : Method} {iterations : Nat} {r : FuzzyResult Rat}

/-! ## The goals of a budget -/

section
variable (hp : ∀ g ∈ p.goals, g.WellPosed)
include hp

theorem wellPosed_addMandatory {c : Category Rat} (h : p.addMandatory key c = .ok q) :
    ∀ g ∈ q.goals, g.WellPosed := by
  unfold addMandatory at h
  dsimp only at h
  split at h
  next =>
    cases h
    exact hp
  next =>
    obtain ⟨v, _, h⟩ := bind_eq_ok.mp h
    obtain ⟨curve, hcurve, h⟩ := bind_eq_ok.mp h
    exact GoalProgram.forall_goals_addItem hp (fun _ => ⟨.trapezoidal hcurve, by norm_num⟩) h

theorem wellPosed_addDebt {d : Debt Rat} (h : p.addDebt key d = .ok q) :
    ∀ g ∈ q.goals, g.WellPosed := by
  unfold addDebt at h
  dsimp only at h
  generalize (if d.isForced then d.fixedPayment else d.minimumPayment) = low at h
  generalize (if d.isForced then d.fixedPayment else greatest d.currentBalance d.minimumPayment) =
    high at h
  split at h
  next =>
    cases h
    exact hp
  next =>
    obtain ⟨v, _, h⟩ := bind_eq_ok.mp h
    obtain ⟨curve, hcurve, h⟩ := bind_eq_ok.mp h
    refine GoalProgram.forall_goals_addItem hp (fun _ => ⟨.linear hcurve, ?_⟩) h
    exact mul_nonneg (not_lt.mp d.interestRate_nonneg) (by norm_num)

theorem wellPosed_addGoalItem {factor : Rat} {g : Goal Rat} (hfactor : 0 ≤ factor)
    (h : p.addGoalItem factor key g = .ok q) : ∀ g ∈ q.goals, g.WellPosed := by
  unfold addGoalItem at h
  dsimp only at h
  split at h
  next =>
    cases h
    exact hp
  next =>
    obtain ⟨v, _, h⟩ := bind_eq_ok.mp h
    obtain ⟨curve, hcurve, h⟩ := bind_eq_ok.mp h
    exact GoalProgram.forall_goals_addItem hp
      (fun _ => ⟨.sCurve (g.target_nonneg hfactor) hcurve, goalWeight_nonneg _ _⟩) h

theorem wellPosed_addFlexible {level : Rat} {c : Category Rat}
    (h : p.addFlexible level key c = .ok q) : ∀ g ∈ q.goals, g.WellPosed := by
  unfold addFlexible at h
  obtain ⟨⟨curve, complete⟩, hcurve, h⟩ := bind_eq_ok.mp h
  dsimp only at h
  split at h
  next =>
    cases h
    exact hp
  next =>
    obtain ⟨v, _, h⟩ := bind_eq_ok.mp h
    exact GoalProgram.forall_goals_addItem hp
      (fun _ => ⟨regular_flexibleCurve hcurve, flexibleWeight_nonneg _⟩) h

end

theorem wellPosed_ofBudget (h : ofBudget b s = .ok p) : ∀ g ∈ p.goals, g.WellPosed := by
  obtain ⟨p₁, h₁, h⟩ := bind_eq_ok.mp h
  obtain ⟨p₂, h₂, h⟩ := bind_eq_ok.mp h
  obtain ⟨p₃, h₃, h₄⟩ := bind_eq_ok.mp h
  have hp₁ : ∀ g ∈ p₁.goals, g.WellPosed := foldlM_invariant _
    (fun _ _ _ _ hp hstep => wellPosed_addMandatory hp hstep) (by simp [GoalProgram.ofIncome]) h₁
  have hp₂ : ∀ g ∈ p₂.goals, g.WellPosed := foldlM_invariant _
    (fun _ _ _ _ hp hstep => wellPosed_addDebt hp hstep) hp₁ h₂
  have hp₃ : ∀ g ∈ p₃.goals, g.WellPosed := foldlM_invariant _
    (fun _ _ _ _ hp hstep => wellPosed_addGoalItem hp (not_lt.mp s.goalFactor_nonneg) hstep) hp₂ h₃
  exact foldlM_invariant _ (fun _ _ _ _ hp hstep => wellPosed_addFlexible hp hstep) hp₃ h₄

/-! ## The mean satisfaction -/

theorem weightedMembership_nonneg (hp : ∀ g ∈ p.goals, g.WellPosed)
    (h : p.summarize solution method iterations = .ok r) : 0 ≤ r.weightedMembership := by
  obtain ⟨scored, hscored, h⟩ := bind_eq_ok.mp h
  cases h
  have hterm : ∀ t ∈ scored, 0 ≤ t.degree * t.goal.weight := by
    intro t ht
    obtain ⟨g, hg, hscore⟩ := exists_of_mem_mapM hscored ht
    obtain ⟨value, _, hscore⟩ := bind_eq_ok.mp hscore
    obtain ⟨degree, hdegree, hscore⟩ := bind_eq_ok.mp hscore
    rw [Curve.degree?_eq_ok] at hdegree
    cases hdegree
    cases hscore
    exact mul_nonneg ((hp g hg).curve.degree_nonneg value) (hp g hg).weight_nonneg
  dsimp only
  unfold ratio
  split
  next hpos =>
    refine div_nonneg ?_ hpos.le
    rw [total_eq_sum]
    refine List.sum_nonneg fun x hx => ?_
    obtain ⟨t, ht, rfl⟩ := List.mem_map.mp hx
    exact hterm t ht
  next => exact le_refl 0

/-- Whatever a backend answers, the score of a budget's program is one from 0 to 100. -/
theorem score_between {backends : Nat → Option (Backend Rat)} (hp : ofBudget b s = .ok p)
    (h : p.solve backends = .ok r) : 0 ≤ r.proposal.score ∧ r.proposal.score ≤ 100 := by
  obtain ⟨solution, method, iterations, _, hsummary⟩ := exists_summarize_of_solve h
  have hnonneg := weightedMembership_nonneg (wellPosed_ofBudget hp) hsummary
  show 0 ≤ least r.weightedMembership 1 * 100 ∧ least r.weightedMembership 1 * 100 ≤ 100
  rw [least_eq_min]
  have hle : min r.weightedMembership 1 ≤ 1 := min_le_right _ _
  have hge : 0 ≤ min r.weightedMembership 1 := le_min hnonneg zero_le_one
  constructor <;> linarith

end FuzzyProgram

end GoalBudget
