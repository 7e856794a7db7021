import GoalBudget.Proofs.Allocation.Outcome
import GoalBudget.Proofs.Budget.Changed
import GoalBudget.Review.Report

/-!
# The verdict of a review

A review decides by the commitments alone whether an income is enough, while an allocation also
needs room for the flexible minimums. An income that covers the commitments and not the minimums on
top of them is misjudged (`Budget.Misjudged`): the review goes ahead, and the allocation fails.
`solve_of_covered` says so for one budget.

The prospects of a budget exist unless its income is misjudged, and its sensitivity exists unless
one of the changed incomes is (`prospects_outcome`, `sensitivity_outcome`). Where they exist, their
verdicts are right. Changes of interest rates have nothing to do with it, and neither have changes
of weights: they leave the income and the minimums as they are (`exists_solve_modifyGoal`).

Main result: `review_outcome`; `no_review_mostlyFun_halved` is a budget whose sensitivity fails
although the budget itself can be allocated.
-/

namespace GoalBudget

/-- Whether an income covers the commitments of a budget but not the flexible minimums on top. -/
def Budget.Misjudged (b : Budget Rat) (income : Rat) : Prop :=
  b.committed ≤ income ∧ income + 0.01 < b.committed + flexibleFloor b

instance (b : Budget Rat) (income : Rat) : Decidable (b.Misjudged income) :=
  inferInstanceAs (Decidable (_ ∧ _))

namespace Preset

/-- The shares of every preset make up the whole, so every preset has a scenario. -/
theorem exists_scenario (p : Preset) : ∃ s : Scenario Rat, p.scenario = .ok s :=
  exists_of_isOk (by cases p <;> decide +kernel)

/-- A preset is found under its name. -/
theorem ofName_name (p : Preset) : ofName p.name = (.ok p : Except (Fault Rat) Preset) := by
  cases p <;> rfl

end Preset

namespace Allocator

variable {a : Allocator Rat} {b : Budget Rat} {s : Scenario Rat}

/-- Where there are allocations with changed goals, there are impacts of other weights. -/
theorem exists_weightImpacts_of_solve (before : Allocation Rat)
    (h : ∀ id f, ∃ r, a.solve (b.modifyGoal id f) s = .ok r) :
    ∃ impacts, a.weightImpacts b s before = .ok impacts := by
  refine exists_mapM_eq_ok fun e _ => ?_
  obtain ⟨higher, hhigher⟩ : ∃ x, a.goalAmount (b.raiseGoal e.1) s e.1 = .ok x := by
    obtain ⟨r, hr⟩ := h e.1 _
    exact exists_bind hr ⟨_, rfl⟩
  obtain ⟨lower, hlower⟩ : ∃ x, a.goalAmount (b.lowerGoal e.1) s e.1 = .ok x := by
    obtain ⟨r, hr⟩ := h e.1 _
    exact exists_bind hr ⟨_, rfl⟩
  exact exists_bind hhigher (exists_bind hlower ⟨_, rfl⟩)

section
variable (hstrategy : a.strategy ≠ .linear) (hunit : ∀ u ∈ a.roundingUnit, 0 < u)
  (hbackends : a.strategy = .fuzzy ∨ a.strategy = .ladder → AnswersAsScripted a.backends)
include hstrategy hunit hbackends

/-- Where the commitments are covered, there is an allocation unless the income is misjudged. -/
theorem solve_of_covered (s : Scenario Rat) (hcovered : b.committed ≤ b.income) :
    (b.Misjudged b.income → a.solve b s =
      .error (.infeasibleMinimums (b.committed + flexibleFloor b - b.income))) ∧
    (¬b.Misjudged b.income → ∃ r, a.solve b s = .ok r) := by
  have hdecided := solve_decided (s := s) hstrategy hunit hbackends
    (if_neg (not_lt.mpr hcovered) : b.shortfall? = none)
  constructor
  · rintro ⟨_, hmisjudged⟩
    have hdeficit : flexibleFloor b - (b.income - b.committed) =
        b.committed + flexibleFloor b - b.income := by ring
    have hcheck : checkFloor b (b.income - b.committed) =
        .error (.infeasibleMinimums (b.committed + flexibleFloor b - b.income)) := by
      rw [checkFloor, deviationTolerance, if_pos (by linarith), hdeficit]
    exact hdecided.fault _ hcheck
  · intro hfine
    have hfloor : b.committed + flexibleFloor b ≤ b.income + 0.01 :=
      not_lt.mp fun hlt => hfine ⟨hcovered, hlt⟩
    refine hdecided.result ?_
    rw [checkFloor, deviationTolerance, if_neg (by linarith)]

/-- There is an allocation exactly if the commitments are covered and the income is not
misjudged. -/
theorem exists_solve_iff :
    (∃ r, a.solve b s = .ok r) ↔ b.committed ≤ b.income ∧ ¬b.Misjudged b.income := by
  constructor
  · rintro ⟨r, hr⟩
    have hcovered : b.committed ≤ b.income := by
      by_contra hnot
      have hshort : b.shortfall? = some (b.committed - b.income) := if_pos (not_le.mp hnot)
      rw [solve, hshort] at hr
      cases hr
    refine ⟨hcovered, fun hmisjudged => ?_⟩
    rw [(solve_of_covered hstrategy hunit hbackends s hcovered).1 hmisjudged] at hr
    cases hr
  · rintro ⟨hcovered, hfine⟩
    exact (solve_of_covered hstrategy hunit hbackends s hcovered).2 hfine

/-! ## Prospects -/

/-- One prospect: it says what is true of the allocation, unless the income is misjudged. -/
theorem prospect_outcome (p : Preset) :
    (b.Misjudged b.income → a.prospect b p.name =
      .error (.infeasibleMinimums (b.committed + flexibleFloor b - b.income))) ∧
    (¬b.Misjudged b.income → ∃ prospect, a.prospect b p.name = .ok prospect ∧
      prospect.preset = p ∧ (prospect.isFeasible = true ↔ b.committed ≤ b.income)) := by
  obtain ⟨s, hs⟩ := p.exists_scenario
  unfold prospect
  rw [bind_of_eq_ok p.ofName_name, bind_of_eq_ok hs]
  by_cases hcovered : b.committed ≤ b.income
  · obtain ⟨hfault, hresult⟩ := solve_of_covered hstrategy hunit hbackends s hcovered
    have hshort : b.shortfall? = none := if_neg (not_lt.mpr hcovered)
    rw [hshort]
    constructor
    · intro hmisjudged
      dsimp only
      rw [hfault hmisjudged]
      rfl
    · intro hfine
      obtain ⟨r, hr⟩ := hresult hfine
      dsimp only
      rw [hr]
      exact ⟨_, rfl, rfl, iff_of_true rfl hcovered⟩
  · have hshort : b.shortfall? = some (b.committed - b.income) := if_pos (not_le.mp hcovered)
    rw [hshort]
    refine ⟨fun hmisjudged => absurd hmisjudged.1 hcovered, fun _ => ⟨_, rfl, rfl, ?_⟩⟩
    exact iff_of_false Bool.false_ne_true hcovered

/-! ## Changes of income -/

/-- One change of income: its verdict is that of an allocation with the changed income, unless
that income is misjudged. -/
theorem incomeImpact_outcome (before : Allocation Rat) {change : Rat}
    (hincome : 0 ≤ b.income * (1 + change)) :
    (b.Misjudged (b.income * (1 + change)) → a.incomeImpact b s before change =
      .error (.infeasibleMinimums
        (b.committed + flexibleFloor b - b.income * (1 + change)))) ∧
    (¬b.Misjudged (b.income * (1 + change)) → ∃ i, a.incomeImpact b s before change = .ok i ∧
      i.change = change ∧ i.newIncome = b.income * (1 + change) ∧
      ∃ changed, b.withIncome i.newIncome = .ok changed ∧
        (i.isFeasible = true ↔ ∃ r, a.solve changed s = .ok r)) := by
  unfold incomeImpact
  rw [bind_of_eq_ok (b.withIncome_eq hincome)]
  by_cases hcovered : b.committed ≤ b.income * (1 + change)
  · obtain ⟨hfault, hresult⟩ :=
      solve_of_covered (b := b.earning _ hincome) hstrategy hunit hbackends s hcovered
    have hshort : (b.earning _ hincome).shortfall? = none := if_neg (not_lt.mpr hcovered)
    rw [hshort]
    constructor
    · intro hmisjudged
      exact bind_of_eq_error (hfault hmisjudged)
    · intro hfine
      obtain ⟨r, hr⟩ := hresult hfine
      refine ⟨_, bind_of_eq_ok hr, rfl, rfl, _, b.withIncome_eq hincome, ?_⟩
      exact iff_of_true rfl ⟨r, hr⟩
  -- Not even the fixed costs are covered: the check sees it and the change is reported as
  -- infeasible.
  · have hshort : (b.earning _ hincome).shortfall? =
        some (b.committed - b.income * (1 + change)) := if_pos (not_le.mp hcovered)
    rw [hshort]
    refine ⟨fun hmisjudged => absurd hmisjudged.1 hcovered,
      fun _ => ⟨_, rfl, rfl, rfl, _, b.withIncome_eq hincome, ?_⟩⟩
    refine iff_of_false Bool.false_ne_true fun hsolve => hcovered ?_
    exact ((exists_solve_iff hstrategy hunit hbackends).mp hsolve).1

/-- Two budgets that differ in the goals only have allocations at the same time. -/
theorem exists_solve_modifyGoal (id : String) (f : Goal Rat → Goal Rat)
    (h : ∃ r, a.solve b s = .ok r) : ∃ r, a.solve (b.modifyGoal id f) s = .ok r := by
  have hfunded := (exists_solve_iff hstrategy hunit hbackends).mp h
  rw [exists_solve_iff hstrategy hunit hbackends]
  exact hfunded

/-- If the budget can be allocated, so can it with other weights. -/
theorem exists_weightImpacts (before : Allocation Rat) (h : ∃ r, a.solve b s = .ok r) :
    ∃ impacts, a.weightImpacts b s before = .ok impacts :=
  exists_weightImpacts_of_solve before fun id f =>
    exists_solve_modifyGoal hstrategy hunit hbackends id f h

/-! ## Reviews -/

/-- The prospects of a budget: one for each preset, all with the right verdict, or the fault of
the allocation where the income is misjudged. -/
theorem prospects_outcome (presets : List Preset) :
    (¬b.Misjudged b.income → ∃ prospects, a.prospects b (presets.map (·.name)) = .ok prospects ∧
      List.Forall₂ (fun preset prospect => prospect.preset = preset ∧
        (prospect.isFeasible = true ↔ b.committed ≤ b.income)) presets prospects) ∧
    (b.Misjudged b.income → presets ≠ [] → a.prospects b (presets.map (·.name)) =
      .error (.infeasibleMinimums (b.committed + flexibleFloor b - b.income))) := by
  have hone (p : Preset) := prospect_outcome (a := a) (b := b) hstrategy hunit hbackends p
  rw [prospects, List.mapM_map]
  constructor
  · exact fun hfine => exists_mapM_forall₂ fun p _ => (hone p).2 hfine
  · intro hmisjudged hpresets
    obtain ⟨p, hp⟩ := List.exists_mem_of_ne_nil presets hpresets
    obtain ⟨_, _, _, hfault⟩ := mapM_eq_error (P := fun _ => b.Misjudged b.income)
      (fun p _ => (hone p).1) (fun p _ hfine => ((hone p).2 hfine).imp fun _ => And.left)
      ⟨p, hp, hmisjudged⟩
    exact hfault

/-- The sensitivity of a budget that has an allocation: one verdict for each change of income, all
of them right, or the fault of the allocation for a changed income that is misjudged. -/
theorem sensitivity_outcome {changes : List Rat} (hchanges : ∀ change ∈ changes, -1 ≤ change)
    (rates : List Rat) (hsolve : ∃ r, a.solve b s = .ok r) :
    ((∀ change ∈ changes, ¬b.Misjudged (b.income * (1 + change))) →
      ∃ report, a.sensitivity b s changes rates = .ok report ∧
        List.Forall₂ (fun change i => i.change = change ∧ i.newIncome = b.income * (1 + change) ∧
          ∃ changed, b.withIncome i.newIncome = .ok changed ∧
            (i.isFeasible = true ↔ ∃ r, a.solve changed s = .ok r)) changes report.income) ∧
    ((∃ change ∈ changes, b.Misjudged (b.income * (1 + change))) →
      ∃ change ∈ changes, b.Misjudged (b.income * (1 + change)) ∧
        a.sensitivity b s changes rates = .error (.infeasibleMinimums
          (b.committed + flexibleFloor b - b.income * (1 + change)))) := by
  have hincome (change : Rat) (hmem : change ∈ changes) : 0 ≤ b.income * (1 + change) := by
    have := hchanges change hmem
    exact mul_nonneg (not_lt.mp b.income_nonneg) (by linarith)
  have hcovered := ((exists_solve_iff hstrategy hunit hbackends).mp hsolve).1
  have hshort : b.shortfall? = none := if_neg (not_lt.mpr hcovered)
  obtain ⟨before, hbefore⟩ := hsolve
  have hone (change : Rat) (hmem : change ∈ changes) :=
    incomeImpact_outcome (s := s) hstrategy hunit hbackends before (hincome change hmem)
  unfold sensitivity
  rw [hshort]
  dsimp only
  rw [bind_of_eq_ok hbefore]
  constructor
  -- No change is misjudged, so every one is reported.
  · intro hfine
    obtain ⟨impacts, himpacts, hall⟩ :=
      exists_mapM_forall₂ fun change hmem => (hone change hmem).2 (hfine change hmem)
    obtain ⟨weights, hweights⟩ :=
      exists_weightImpacts hstrategy hunit hbackends before ⟨before, hbefore⟩
    rw [bind_of_eq_ok himpacts]
    exact ⟨_, bind_of_eq_ok hweights, hall⟩
  -- The first change that is misjudged ends the report with its fault.
  · intro hmisjudged
    obtain ⟨change, hmem, hchange, hfault⟩ := mapM_eq_error
      (fun change hmem => (hone change hmem).1)
      (fun change hmem hfine => ((hone change hmem).2 hfine).imp fun _ => And.left) hmisjudged
    exact ⟨change, hmem, hchange, bind_of_eq_error hfault⟩

end

/-- What a review says is right wherever it comes to an end, and it fails for the incomes that
are misjudged and for no other reason: prospects if the income of the budget is, a sensitivity if
one of the changed incomes is. -/
theorem review_outcome (hstrategy : a.strategy ≠ .linear)
    (hunit : ∀ u ∈ a.roundingUnit, 0 < u)
    (hbackends : a.strategy = .fuzzy ∨ a.strategy = .ladder → ∀ n backend,
      a.backends n = some backend → ∃ status solution, backend = .scripted status solution n)
    (presets : List Preset) {changes : List Rat} (hchanges : ∀ change ∈ changes, -1 ≤ change)
    (rates : List Rat) :
    (¬b.Misjudged b.income → ∃ prospects, a.prospects b (presets.map (·.name)) = .ok prospects ∧
      List.Forall₂ (fun preset prospect => prospect.preset = preset ∧
        (prospect.isFeasible = true ↔ b.committed ≤ b.income)) presets prospects) ∧
    (b.Misjudged b.income → presets ≠ [] → a.prospects b (presets.map (·.name)) =
      .error (.infeasibleMinimums (b.committed + flexibleFloor b - b.income))) ∧
    ((∃ r, a.solve b s = .ok r) →
      ((∀ change ∈ changes, ¬b.Misjudged (b.income * (1 + change))) →
        ∃ report, a.sensitivity b s changes rates = .ok report ∧
          List.Forall₂ (fun change i => i.change = change ∧
            i.newIncome = b.income * (1 + change) ∧
            ∃ changed, b.withIncome i.newIncome = .ok changed ∧
              (i.isFeasible = true ↔ ∃ r, a.solve changed s = .ok r)) changes report.income) ∧
      ((∃ change ∈ changes, b.Misjudged (b.income * (1 + change))) →
        ∃ change ∈ changes, b.Misjudged (b.income * (1 + change)) ∧
          a.sensitivity b s changes rates = .error (.infeasibleMinimums
            (b.committed + flexibleFloor b - b.income * (1 + change))))) := by
  obtain ⟨hfine, hmisjudged⟩ := prospects_outcome (b := b) hstrategy hunit hbackends presets
  exact ⟨hfine, hmisjudged, sensitivity_outcome hstrategy hunit hbackends hchanges rates⟩

/-- An allocator that does not round. -/
def exactly (strategy : Strategy) : Allocator Rat :=
  { bySevens strategy with roundingUnit := none }

/-- The allocator without rounding accepts every strategy. -/
theorem exactly_accepts (strategy : Strategy) : (∀ u ∈ (exactly strategy).roundingUnit, 0 < u) ∧
    ∀ n backend, (exactly strategy).backends n = some backend →
      ∃ status solution, backend = .scripted status solution n := by
  refine ⟨?_, ?_⟩
  · rintro u ⟨⟩
  · rintro n backend ⟨⟩

/-- A budget of nearly nothing but a flexible minimum. -/
def mostlyFun : Budget Rat where
  income := 100
  mandatory := ∅
  flexible := ⟨[("fun", ⟨"fun", 95, 0, true, 0, literal_not_neg, literal_not_neg, by decide⟩)],
    by decide⟩
  debts := ∅
  goals := ∅
  income_nonneg := literal_not_neg
  ids_distinct := by decide

/-- A budget with prospects and a sensitivity, until half of its income is taken away. -/
theorem review_outcome_mostlyFun :
    (∃ r, (exactly .hybrid).solve mostlyFun halfway = .ok r) ∧
    (∃ prospects, (exactly .hybrid).prospects mostlyFun ["conservative", "aggressive"] =
      .ok prospects ∧ prospects.length = 2) ∧
    (∃ report, (exactly .hybrid).sensitivity mostlyFun halfway [0.1, -0.04] [2] = .ok report ∧
      report.income.length = 2) ∧
    (exactly .hybrid).sensitivity mostlyFun halfway [0.1, -0.5] [2] =
      .error (.infeasibleMinimums 45) := by
  obtain ⟨hunit, hbackends⟩ := exactly_accepts .hybrid
  have hsolve : ∃ r, (exactly .hybrid).solve mostlyFun halfway = .ok r :=
    exists_of_isOk (by decide +kernel)
  obtain ⟨hprospects, _, hfine⟩ := review_outcome (b := mostlyFun) (s := halfway)
    (by decide) hunit (fun _ => hbackends) [.conservative, .aggressive]
    (show ∀ change ∈ [0.1, -0.04], (-1 : Rat) ≤ change by decide +kernel) [2]
  obtain ⟨_, _, hcut⟩ := review_outcome (b := mostlyFun) (s := halfway)
    (by decide) hunit (fun _ => hbackends) []
    (show ∀ change ∈ [0.1, -0.5], (-1 : Rat) ≤ change by decide +kernel) [2]
  refine ⟨hsolve, ?_, ?_, ?_⟩
  · obtain ⟨prospects, hok, hall⟩ := hprospects (by decide +kernel)
    exact ⟨prospects, hok, hall.length_eq.symm⟩
  · obtain ⟨report, hok, hall⟩ := (hfine hsolve).1 (by decide +kernel)
    exact ⟨report, hok, hall.length_eq.symm⟩
  · obtain ⟨change, hmem, hmisjudged, hfault⟩ := (hcut hsolve).2 (by decide +kernel)
    simp only [List.mem_cons, List.not_mem_nil, or_false] at hmem
    rcases hmem with rfl | rfl
    · exact absurd hmisjudged (by decide +kernel)
    · have hdeficit : mostlyFun.committed + flexibleFloor mostlyFun -
          mostlyFun.income * (1 + -0.5) = 45 := by decide +kernel
      rw [hfault, hdeficit]

/-- Half of the income covers the commitments, of which there are none, and still there is neither
a report about halving it nor a prospect of having no more than that. -/
theorem no_review_mostlyFun_halved :
    (∃ r, (exactly .preemptive).solve mostlyFun halfway = .ok r) ∧
    ¬(∃ report, (exactly .preemptive).sensitivity mostlyFun halfway [-0.5] [] = .ok report) ∧
    (mostlyFun.earning 50 (by decide)).shortfall? = none ∧
    ¬∃ prospects, (exactly .preemptive).prospects (mostlyFun.earning 50 (by decide))
      Preset.names = .ok prospects := by
  obtain ⟨hunit, hbackends⟩ := exactly_accepts .preemptive
  have hsolve : ∃ r, (exactly .preemptive).solve mostlyFun halfway = .ok r :=
    exists_of_isOk (by decide +kernel)
  refine ⟨hsolve, ?_, by decide +kernel, ?_⟩
  · rintro ⟨report, hreport⟩
    obtain ⟨_, _, _, hfault⟩ := (sensitivity_outcome (b := mostlyFun) (s := halfway) (by decide)
      hunit (fun _ => hbackends) (show ∀ change ∈ [-0.5], (-1 : Rat) ≤ change by decide +kernel) []
      hsolve).2 (by decide +kernel)
    cases hreport.symm.trans hfault
  · rintro ⟨prospects, hprospects⟩
    have hfault := (prospects_outcome (b := mostlyFun.earning 50 (by decide)) (by decide) hunit
      (fun _ => hbackends) Preset.all).2 (by decide +kernel) (by decide)
    cases hprospects.symm.trans hfault

end Allocator

end GoalBudget
