import GoalBudget.Proofs.Allocation.Conservation
import GoalBudget.Proofs.Allocation.Rounding
import GoalBudget.Proofs.Deviation.Reformulation
import Mathlib.Algebra.Module.Submodule.Lattice
import Mathlib.Computability.Primrec.List
import Mathlib.Data.List.Permutation

/-!
# Goals reported as achieved

The strategies with targets decide which goals are achieved, by the amounts that they propose. An
allocation reports these goals, but what it gives them has been rounded since, brought back within
bounds and made to meet the income. So a goal that is reported as achieved comes up to its target
where amounts are not rounded. Where they are, it can fall short, by half a unit in rounding and by
more where the rounded amounts exceed the income and the goals are trimmed: `solve_achieved`. A
single goal is enough for that (`overstates_tripAndFun`).

The first part is about proposals: what either strategy proposes serves the goals of the budget that
was left to it, and so those of the whole budget (`propose_serves`). The linear program is asked to
stay within its program (`StaysAffordable`), since its solver may come from outside.

The second part follows the amounts. Rounding moves each by half a unit, trimming takes from a goal
only what all other entries do not cover (`uncovered_le`), and that is at most half a unit for each
of them (`NearTarget`). Sharing a surplus lowers nothing.
-/

namespace GoalBudget

/-! ## What the strategies with targets propose -/

namespace DeviationProgram

variable {p : DeviationProgram Rat} {b r : Budget Rat} {x : List Rat}

/-- Amounts that the income affords, with the rest of the income left. -/
theorem sound_of_affords (h : p.Affords p.upperLimit x) :
    Funds.Sound p.vars 0 p.income ⟨x, p.income - x.sum⟩ where
  length := h.length
  above i v hv := (h.bounds hv).1
  below i v hv hbounded := by
    have hupper : x.getD i 0 ≤ v.upperBound p.income := (h.bounds hv).2
    rw [Variable.upperBound, if_pos hbounded] at hupper
    exact hupper.trans (le_add_of_nonneg_right (le_refl 0))
  left_nonneg := sub_nonneg.mpr h.sum_le
  balance := add_sub_cancel _ _

/-- What a budget wishes for depends on its goals and flexible categories only. -/
theorem wishes_congr (hgoals : r.goals = b.goals) (hflexible : r.flexible = b.flexible)
    (s : Scenario Rat) : wishes r s = wishes b s := by
  rw [wishes, wishes, hgoals, hflexible]

end DeviationProgram

/-- A result that serves a budget with some money does so with more. -/
theorem DeviationResult.Serves.mono {b : Budget Rat} {s : Scenario Rat} {money money' : Rat}
    {r : DeviationResult Rat} (h : r.Serves b s money) (hle : money ≤ money') :
    r.Serves b s money' :=
  ⟨h.goals_admit, h.flexible_admit, h.values_nonneg, h.sum_le.trans hle, h.achieved⟩

/-- Money that serves a budget covers the flexible minimums. -/
theorem DeviationResult.Serves.floor_le {b : Budget Rat} {s : Scenario Rat} {money : Rat}
    {r : DeviationResult Rat} (h : r.Serves b s money) : flexibleFloor b ≤ money := by
  have hminimums : flexibleFloor b ≤
      ((b.flexible.map fun _ c => c.minimum).keys.map (r.variableValues.getD · 0)).sum +
        (b.flexible.map fun _ c => c.minimum).size * 0 := by
    refine Ledger.sum_values_le fun key x hx => ?_
    obtain ⟨c, hc, rfl⟩ := Option.map_eq_some_iff.mp (Ledger.get?_map _ ▸ hx)
    rw [add_zero]
    exact (h.flexible_admit key c hc).1
  rw [Ledger.keys_map, mul_zero, add_zero] at hminimums
  exact hminimums.trans ((Ledger.sum_getD_le b.flexible.distinct h.values_nonneg).trans h.sum_le)

namespace Allocator

variable {a : Allocator Rat} {b : Budget Rat} {s : Scenario Rat} {r : Allocation Rat}
  {proposal : Proposal Rat} {start : Pools Rat} {key : String}

/-- If the strategy is the one with a linear program, an optimal answer of the solver keeps to
what is stated of the variables: their bounds and the income. -/
def StaysAffordable (a : Allocator Rat) (b : Budget Rat) (s : Scenario Rat) : Prop :=
  a.strategy = .linear → ∀ r p backend answer, reduced b = .ok r →
    DeviationProgram.penaltiesOfBudget r s = .ok p → a.lp p.width = .ok backend →
    (backend.run p.linearCalls).answer = .ok answer → answer.status = .optimal →
    p.Affords p.upperLimit (answer.solution.take p.vars.length)

/-- A program that aims at what a budget asks for, with the income that the commitments leave. -/
theorem serves_of_reduced {q : Budget Rat} {p : DeviationProgram Rat} {x : List Rat}
    {left money : Rat} {status : Status} {iterations : Nat} {result : DeviationResult Rat}
    (hq : reduced b = .ok q) (haims : p.AimsAt (DeviationProgram.wishes q s))
    (hsound : Funds.Sound p.vars 0 money ⟨x, left⟩)
    (hresult : p.summarize x status iterations = .ok result) : result.Serves b s money := by
  obtain ⟨_, _, _, hflexible, hgoals⟩ := reduced_spec hq
  rw [DeviationProgram.wishes_congr hgoals hflexible] at haims
  exact haims.serves hsound hresult

/-- Strict order serves the budget: it spends no more than there is, and there is no more than the
flexible minimums need, but for the tolerance, if they need more than there is. -/
theorem solvePreemptive_serves {q : Budget Rat} {p : DeviationProgram Rat}
    {result : DeviationResult Rat} (hshortfall : b.shortfall? = none) (hq : reduced b = .ok q)
    (hp : DeviationProgram.tiersOfBudget q s = .ok p) (h : p.solvePreemptive = .ok result) :
    result.Serves b s (b.income - b.committed + deviationTolerance) := by
  obtain ⟨hincome, hmandatory, hdebts, _, _⟩ := reduced_spec hq
  have hadds := DeviationProgram.adds_tiersOfBudget hmandatory hdebts hp
  have hleft : p.income = b.income - b.committed :=
    hadds.income.trans (hincome.trans (surplus_eq hshortfall))
  have hcheck := DeviationProgram.checkMinimums_of_solvePreemptive h
  have hminimums : sumOfMinimums p.vars ≤ p.income + deviationTolerance := by
    unfold checkMinimums at hcheck
    split at hcheck
    next => cases hcheck
    next hle => exact not_lt.mp hle
  obtain ⟨f, hrun, hresult⟩ := bind_eq_ok.mp h
  refine (serves_of_reduced hq (DeviationProgram.aimsAt_tiersOfBudget hmandatory hdebts hp)
    (DeviationProgram.sound_runPreemptive hrun) hresult).mono ?_
  rw [← hleft]
  exact max_le (le_add_of_nonneg_right deviationTolerance_nonneg) hminimums

/-- A linear program serves the budget with amounts that the income affords. -/
theorem solveLinear_serves {q : Budget Rat} {p : DeviationProgram Rat}
    {result : DeviationResult Rat} (hshortfall : b.shortfall? = none) (hq : reduced b = .ok q)
    (hp : DeviationProgram.penaltiesOfBudget q s = .ok p)
    (haffords : ∀ backend answer, a.lp p.width = .ok backend →
      (backend.run p.linearCalls).answer = .ok answer → answer.status = .optimal →
      p.Affords p.upperLimit (answer.solution.take p.vars.length))
    (h : p.solveLinear a.lp = .ok result) :
    result.Serves b s (b.income - b.committed + deviationTolerance) := by
  obtain ⟨hincome, hmandatory, hdebts, _, _⟩ := reduced_spec hq
  have haims := DeviationProgram.aimsAt_penaltiesOfBudget hmandatory hdebts hp
  have hleft : p.income = b.surplus :=
    (DeviationProgram.adds_penaltiesOfBudget hmandatory hdebts hp).income.trans hincome
  have hincome_le : p.income ≤ b.income - b.committed + deviationTolerance := by
    rw [hleft, surplus_eq hshortfall]
    exact le_add_of_nonneg_right deviationTolerance_nonneg
  unfold DeviationProgram.solveLinear at h
  split at h
  next hnil =>
    -- Without variables no backend is asked; the empty solution is affordable.
    have hnonneg : 0 ≤ p.income := by
      rw [hleft, Budget.surplus, greatest_eq_max]
      exact le_max_left _ _
    have hsound : Funds.Sound p.vars 0 p.income ⟨[], p.income - 0⟩ :=
      DeviationProgram.sound_of_affords (x := []) ⟨by
        rw [List.isEmpty_iff.mp hnil]
        exact .nil, hnonneg⟩
    exact (serves_of_reduced hq haims hsound h).mono hincome_le
  next =>
    obtain ⟨_, _, h⟩ := bind_eq_ok.mp h
    obtain ⟨backend, hbackend, h⟩ := bind_eq_ok.mp h
    obtain ⟨answer, hanswer, h⟩ := bind_eq_ok.mp h
    split at h
    next hoptimal =>
      have hsound := DeviationProgram.sound_of_affords
        (haffords backend answer hbackend hanswer hoptimal)
      exact (serves_of_reduced hq haims hsound h).mono hincome_le
    next => cases h

/-- The strategies with targets propose what serves the budget with what the commitments leave of
the income, but for the tolerance. -/
theorem propose_serves (hstrategy : a.strategy = .preemptive ∨ a.strategy = .linear)
    (hlp : a.StaysAffordable b s) (hshortfall : b.shortfall? = none)
    (h : a.propose b s = .ok proposal) : ∃ result, proposal = DeviationResult.proposal result ∧
      result.Serves b s (b.income - b.committed + deviationTolerance) := by
  cases proposes_of_eq_ok h with
  | hybrid hother | fuzzy hother | ladder hother =>
    rcases hstrategy with hstrategy | hstrategy <;> cases hother.symm.trans hstrategy
  | preemptive _ hq hp hresult =>
    exact ⟨_, rfl, solvePreemptive_serves hshortfall hq hp hresult⟩
  | linear hlinear hq hp hresult =>
    refine ⟨_, rfl, solveLinear_serves hshortfall hq hp ?_ hresult⟩
    intro backend answer hbackend hanswer hoptimal
    exact hlp hlinear _ _ backend answer hq hp hbackend hanswer hoptimal

/-! ## What is left of it -/

/-- An allocation reports the goals that the strategy reaches. -/
theorem achieved_eq (h : a.solve b s = .ok r) (hproposal : a.propose b s = .ok proposal) :
    r.achieved = b.goals.sorted.keys.filter proposal.achieved.contains := by
  unfold solve at h
  cases hshortfall : b.shortfall? with
  | some deficit =>
    rw [hshortfall] at h
    cases h
  | none =>
    rw [hshortfall] at h
    obtain ⟨proposal', hproposal', h⟩ := bind_eq_ok.mp h
    cases hproposal.symm.trans hproposal'
    obtain ⟨flexible, _, h⟩ := bind_eq_ok.mp h
    obtain ⟨goals, _, h⟩ := bind_eq_ok.mp h
    rw [check_eq_ok h]

/-- Where commitments, flexible minimums and targets fit into the income, the last phase of a
trimming has nothing left to do. -/
theorem uncovered_eq_zero {p : Pools Rat} (h : p.Within b)
    (hfits : b.committed + flexibleFloor b +
      (b.goals.map fun _ g => g.target s.goalFactor).values.sum ≤ b.income) :
    uncovered b s (-residual b.income b.committed p) p = 0 := by
  have hgoals := sub_le_excessOver_targetFloors (s := s) h
  have hflexible := excessOver_minimumFloors h
  rw [flexibleFloor] at hfits
  rw [uncovered, residual_eq]
  exact max_eq_left (by linarith)

/-- No more is left for the last phase of a trimming than is to be trimmed. -/
theorem uncovered_le {p : Pools Rat} {amount : Rat} (h : 0 ≤ amount) :
    uncovered b s amount p ≤ amount := by
  have hgoals : 0 ≤ excessOver (targetFloors b s) p.goals := excessOver_nonneg
  have hflexible : 0 ≤ excessOver (minimumFloors b) p.flexible := excessOver_nonneg
  exact max_le h (by linarith)

theorem halfUnit_nonneg (hunit : ∀ u ∈ a.roundingUnit, 0 < u) : 0 ≤ a.halfUnit := by
  unfold halfUnit
  cases hu : a.roundingUnit with
  | none => norm_num
  | some u => exact (half_pos (hunit u hu)).le

/-- How close an amount comes to a target that a strategy has proposed. -/
structure NearTarget (a : Allocator Rat) (b : Budget Rat) (s : Scenario Rat) (target x : Rat) :
    Prop where
  /-- Where amounts are not rounded, it comes up to the target, but for the tolerance. -/
  of_unrounded : a.roundingUnit = none → target - 0.01 < x
  /-- Where commitments, flexible minimums and all targets fit into the income, it falls short by
  no more than half a unit. -/
  of_fits : b.committed + flexibleFloor b +
    (b.goals.map fun _ g => g.target s.goalFactor).values.sum ≤ b.income →
      target - 0.01 < x + a.halfUnit
  /-- In any case it falls short by no more than half a unit and what the rounded amounts may
  exceed the income by. -/
  always : target - 0.01 <
    x + a.halfUnit + (0.01 + (b.goals.size + b.flexible.size) * a.halfUnit)

/-- Without rounding half a unit is zero. -/
theorem halfUnit_of_unrounded (h : a.roundingUnit = none) : a.halfUnit = 0 := by
  rw [halfUnit, h]
  norm_num

/-- An amount within half a unit of its target, as rounding leaves it. -/
theorem NearTarget.of_halfUnit {target x : Rat} (hhalf : 0 ≤ a.halfUnit)
    (h : target - 0.01 < x + a.halfUnit) : a.NearTarget b s target x where
  of_unrounded hnone := by
    rw [halfUnit_of_unrounded hnone, add_zero] at h
    exact h
  of_fits _ := h
  always := by
    have hcount : (0 : Rat) ≤ (b.goals.size + b.flexible.size) * a.halfUnit :=
      mul_nonneg (add_nonneg (Nat.cast_nonneg _) (Nat.cast_nonneg _)) hhalf
    linarith

/-- An amount within half a unit of its target that was trimmed, down to the target or further by
what the floors of the other amounts leave uncovered. -/
theorem NearTarget.of_trimmed {target x : Rat} (hwithin : start.Within b)
    (hover : residual b.income b.committed start < -normalizationTolerance)
    (hsum : start.flexible.values.sum + start.goals.values.sum ≤
      b.income - b.committed + 0.01 + (b.goals.size + b.flexible.size) * a.halfUnit)
    (h : target - 0.01 < x + a.halfUnit +
      uncovered b s (-residual b.income b.committed start) start) :
    a.NearTarget b s target x := by
  have hresidual : residual b.income b.committed start =
      b.income - b.committed - (start.flexible.values.sum + start.goals.values.sum) := residual_eq
  rw [normalizationTolerance] at hover
  refine ⟨fun hnone => ?_, fun hfits => ?_, ?_⟩
  · -- without rounding the amounts are those proposed, which do not exceed the income
    rw [halfUnit_of_unrounded hnone, mul_zero, add_zero] at hsum
    exact absurd hover (by linarith)
  · rw [uncovered_eq_zero hwithin hfits, add_zero] at h
    exact h
  · have hdeficit : 0 ≤ -residual b.income b.committed start := by linarith
    have huncovered := uncovered_le (b := b) (s := s) (p := start) hdeficit
    linarith

/-- What a goal is left with that was proposed its target. -/
theorem Run.goal_ge {result : DeviationResult Rat} (h : a.Run b s r result.proposal start)
    (hunit : ∀ u ∈ a.roundingUnit, 0 < u)
    (hserves : result.Serves b s (b.income - b.committed + deviationTolerance)) {g : Goal Rat}
    (hg : b.goals.get? key = some g)
    (hreached : g.target s.goalFactor - deviationTolerance < result.variableValues.getD key 0) :
    ∃ x, r.goals.get? key = some x ∧ a.NearTarget b s (g.target s.goalFactor) x := by
  have hhalf := halfUnit_nonneg hunit
  have htolerance : (deviationTolerance : Rat) = 0.01 := rfl
  have hwithin : start.Within b := GoalBudget.within_start hunit
    (fun key hkey => by
      obtain ⟨g, hg⟩ := Ledger.mem_keys_iff.mp hkey
      exact (hserves.goals_admit key g hg).1) h.flexible_start h.goals_start
  have hsettled : settledFirst b result.proposal.debtExtra = b.committed := by
    rw [settledFirst_eq (fun _ hkey => absurd hkey List.not_mem_nil)]
    exact add_zero _
  rw [h.goals_eq, hsettled]
  -- the amount to start from is within half a unit of the proposed one
  obtain ⟨x₀, hx₀⟩ : ∃ x₀, start.goals.get? key = some x₀ := by
    refine Ledger.mem_keys_iff.mp ?_
    rw [hwithin.goals_keys, Ledger.keys_sorted_perm.mem_iff]
    exact Ledger.mem_keys_of_get? hg
  have hstart : g.target s.goalFactor - 0.01 < x₀ + a.halfUnit := by
    have hnear := abs_le.mp (goals_near hunit h.goals_start hserves.goals_admit hx₀)
    rw [DeviationResult.proposal] at hnear
    rw [htolerance] at hreached
    linarith
  by_cases hover : -normalizationTolerance ≤ residual b.income b.committed start
  · obtain ⟨y, hy, hle⟩ := normalize_goal_ge_of_not_over (s := s) maxPasses hwithin hover hx₀
    exact ⟨y, hy, .of_halfUnit hhalf (by linarith)⟩
  · have hminimums : b.committed + (b.flexible.map fun _ c => c.minimum).values.sum ≤
        b.income + normalizationTolerance := by
      have hfloor := hserves.floor_le
      rw [flexibleFloor, htolerance] at hfloor
      rw [normalizationTolerance]
      linarith
    obtain ⟨y, hy, hle⟩ := normalize_goal_ge_of_over (s := s) hwithin hminimums
      (not_le.mp hover) (by decide : 0 < maxPasses) hx₀
    rw [targetFloors_getD hg] at hle
    have hsum := sum_start_le hunit hserves h.flexible_start h.goals_start
    rw [htolerance] at hsum
    have hlow : g.target s.goalFactor - 0.01 - a.halfUnit <
        min x₀ (g.target s.goalFactor) := lt_min (by linarith) (by linarith)
    exact ⟨y, hy, .of_trimmed hwithin (not_le.mp hover) hsum (by linarith)⟩

/-- With strict order or a linear program, an allocation reports the goals as achieved whose
proposed amounts come up to their targets. What these goals get does so where amounts are not
rounded. Where they are, it falls short by no more than half a unit if commitments, flexible
minimums and all targets fit into the income, and otherwise also by what the rounded amounts may
exceed the income by. -/
theorem solve_achieved (hstrategy : a.strategy = .preemptive ∨ a.strategy = .linear)
    (hunit : ∀ u ∈ a.roundingUnit, 0 < u) (hlp : a.StaysAffordable b s)
    (h : a.solve b s = .ok r) :
    ∃ proposal, a.propose b s = .ok proposal ∧
      (∀ key, key ∈ r.achieved ↔ ∃ g, b.goals.get? key = some g ∧ 0 < g.remainingAmount ∧
        g.target s.goalFactor - 0.01 < proposal.values.getD key 0) ∧
      ∀ key ∈ r.achieved, ∃ g x, b.goals.get? key = some g ∧ r.goals.get? key = some x ∧
        a.NearTarget b s (g.target s.goalFactor) x := by
  obtain ⟨proposal, start, hrun⟩ := solve_eq_ok h
  obtain ⟨result, rfl, hserves⟩ := propose_serves hstrategy hlp hrun.no_shortfall hrun.proposed
  have hreported (key : String) : key ∈ r.achieved ↔ ∃ g, b.goals.get? key = some g ∧
      0 < g.remainingAmount ∧
        g.target s.goalFactor - 0.01 < result.proposal.values.getD key 0 := by
    rw [achieved_eq h hrun.proposed, List.mem_filter, Ledger.keys_sorted_perm.mem_iff,
      Ledger.mem_keys_iff, List.contains_iff_mem, ← exists_and_right]
    exact exists_congr fun g => and_congr_right fun hg => hserves.achieved key g hg
  refine ⟨_, hrun.proposed, hreported, fun key hkey => ?_⟩
  obtain ⟨g, hg, _, hreached⟩ := (hreported key).mp hkey
  obtain ⟨x, hx, hleft⟩ := hrun.goal_ge hunit hserves hg hreached
  exact ⟨g, x, hg, hx, hleft⟩

/-- For the household the linear program stays within its program. -/
theorem staysAffordable_household : (bySevens .linear).StaysAffordable household halfway := by
  have hanswer : ((do
      let r ← reduced household
      let p ← DeviationProgram.penaltiesOfBudget r halfway
      let backend ← (bySevens .linear).lp p.width
      let answer ← (backend.run p.linearCalls).answer
      return decide (p.Affords p.upperLimit (answer.solution.take p.vars.length)) :
        Except (Fault Rat) Bool).toOption) = some true := by decide +kernel
  intro _ r p backend answer hr hp hbackend hrun _
  rw [bind_of_eq_ok hr, bind_of_eq_ok hp, bind_of_eq_ok hbackend, bind_of_eq_ok hrun] at hanswer
  exact of_decide_eq_true (Option.some.inj hanswer)

/-- What the household is told to have achieved comes up to its target, but for some sevens. -/
theorem solve_achieved_household : ∃ r proposal,
    (bySevens .linear).solve household halfway = .ok r ∧
      (bySevens .linear).propose household halfway = .ok proposal ∧
      (∀ key, key ∈ r.achieved ↔ ∃ g, household.goals.get? key = some g ∧
        0 < g.remainingAmount ∧
        g.target halfway.goalFactor - 0.01 < proposal.values.getD key 0) ∧
      ∀ key ∈ r.achieved, ∃ g x, household.goals.get? key = some g ∧
        r.goals.get? key = some x ∧
        (bySevens .linear).NearTarget household halfway (g.target halfway.goalFactor) x := by
  obtain ⟨r, hr⟩ := exists_of_isOk
    (by decide +kernel : ((bySevens .linear).solve household halfway).isOk = true)
  obtain ⟨proposal, hproposal⟩ := solve_achieved (.inr rfl)
    (by rintro u ⟨⟩; norm_num) staysAffordable_household hr
  exact ⟨r, proposal, hr, hproposal⟩

/-- An allocator that rounds to hundreds and solves linear programs by the simplex method. -/
def byHundreds (strategy : Strategy) : Allocator Rat where
  strategy := strategy
  roundingUnit := some 100
  backends := fun _ => none
  lp := lpBackend "simplex" none

/-- Whether a goal is reported as achieved with less than its target, beyond the tolerance. -/
def Overstates (a : Allocator Rat) (b : Budget Rat) (s : Scenario Rat) (key : String) : Prop :=
  ∃ r g x, a.solve b s = .ok r ∧ b.goals.get? key = some g ∧ key ∈ r.achieved ∧
    r.goals.get? key = some x ∧ x < g.target s.goalFactor - 0.01

/-- A goal reported as achieved, with less than its target. -/
theorem overstates_of_reported {a : Allocator Rat} {b : Budget Rat} {s : Scenario Rat}
    {key : String} {g : Goal Rat} {x : Rat}
    (h : ((a.solve b s).toOption.map fun r => (r.achieved, r.goals.get? key)) =
      some ([key], some x)) (hg : b.goals.get? key = some g)
    (hx : x < g.target s.goalFactor - 0.01) : a.Overstates b s key := by
  obtain ⟨r, hr, hread⟩ := exists_of_toOption_map h
  obtain ⟨hachieved, hamount⟩ := Prod.mk.inj hread
  refine ⟨r, g, x, hr, hg, ?_, hamount, hx⟩
  rw [hachieved]
  exact List.mem_singleton_self key

/-- A trip to save for, and fun that takes the rest. -/
def tripAndFun : Budget Rat where
  income := 300
  mandatory := ∅
  flexible := ⟨[("fun", ⟨"fun", 160, 0, true, 0, literal_not_neg, literal_not_neg, by decide⟩)],
    by decide⟩
  debts := ∅
  goals := ⟨[("trip", ⟨"trip", "trip", 140, 1000, "travel", .high, 5, literal_not_neg,
    literal_not_neg, literal_nonneg⟩)], by decide⟩
  income_nonneg := literal_not_neg
  ids_distinct := by decide

/-- The trip is proposed its target of 140, but with hundreds it gets 100 and fun 200. Together they
meet the income, so no pass changes that, and the trip is reported as achieved. -/
theorem overstates_tripAndFun : (byHundreds .preemptive).Overstates tripAndFun halfway "trip" ∧
    (byHundreds .linear).Overstates tripAndFun halfway "trip" := by
  have hshort : (100 : Rat) < Goal.target ⟨"trip", "trip", 140, 1000, "travel", .high, 5,
      by decide, by decide, by decide⟩ halfway.goalFactor - 0.01 := by
    norm_num [Goal.target, halfway]
  constructor
  · exact overstates_of_reported (by cbv) rfl hshort
  · exact overstates_of_reported (by decide +kernel) rfl hshort

end Allocator

end GoalBudget
