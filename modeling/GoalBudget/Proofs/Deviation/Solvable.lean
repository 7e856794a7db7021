import GoalBudget.Proofs.Deviation.Reformulation

/-!
# When deviations can be minimized

Before the linear program is stated, the lower bounds are checked against the income, and this check
tolerates a hundredth. The program itself tolerates nothing: its budget row asks for a sum that is
no more than the income. As the columns of the goals leave room for every allocation, the program
has a feasible point exactly when the lower bounds fit (`feasible_iff_minimums_fit`), and no point
costs less than nothing (`value_nonneg`).

So whoever settles the program correctly finds an optimal point if the lower bounds fit, and
otherwise that there is none (`settled_cases`). Lower bounds above the income are reported as such
when they are above by more than a hundredth, and as a stop of the solver when they are above by
less. Main result: `solveLinear_settled`, and `overdrawn_stops` for the gap between the two
conditions.

The solver is any backend that settles this one program. What it answers to others does not matter,
nor how it finds its answer.
-/

namespace GoalBudget

/-- Whether an answer settles a program: with a solution, or with the reason why there is none. -/
def Answer.Settles (p : Program Rat) (a : Answer Rat) : Prop :=
  match a.status with
  | .optimal => p.IsOptimal a.solution
  | .infeasible => ¬∃ point, p.Feasible point
  | .unbounded => ∀ bound, ∃ point, p.Feasible point ∧ p.AsGood (p.value point) bound
  | _ => False

namespace DeviationProgram

variable {p : DeviationProgram Rat} {x point : List Rat}

/-! ## Feasible points -/

/-- The lower bounds are an allocation that the income affords, if it affords any. -/
theorem affords_minimums (h : sumOfMinimums p.vars ≤ p.income) :
    p.Affords p.upperLimit (p.vars.map (·.minimum)) := by
  constructor
  · rw [List.forall₂_map_right_iff, List.forall₂_same]
    exact fun v _ => ⟨le_refl _, v.minimum_le_upperBound p.income⟩
  · rwa [sumOfMinimums, total_eq_sum] at h

/-- There is a feasible point exactly if the lower bounds fit into the income. -/
theorem feasible_iff_minimums_fit (htarget : ∀ g ∈ p.goals, 0 ≤ g.target) :
    (∃ point, (Program.ofCalls p.width p.linearCalls).Feasible point) ↔
      sumOfMinimums p.vars ≤ p.income := by
  constructor
  · rintro ⟨point, hpoint⟩
    exact (feasible_linearCalls_iff.mp hpoint).2.1.sumOfMinimums_le
  · intro h
    exact ⟨_, feasible_pointOf (affords_minimums h) htarget⟩

/-! ## What they cost -/

theorem deviation_nonneg (g : DeviationGoal Rat) (a : Rat) : 0 ≤ g.deviation a := by
  rw [DeviationGoal.deviation]
  cases g.side with
  | atLeast =>
    rw [Side.deviation, greatest_eq_max]
    exact le_max_left _ _
  | atMost =>
    rw [Side.deviation, greatest_eq_max]
    exact le_max_left _ _
  | exactly =>
    rw [Side.deviation, magnitude_eq_abs]
    exact abs_nonneg _

/-- No point costs less than nothing. -/
theorem value_nonneg (hweight : ∀ g ∈ p.goals, 0 ≤ g.weight)
    (h : (Program.ofCalls p.width p.linearCalls).Feasible point) :
    0 ≤ (Program.ofCalls p.width p.linearCalls).value point := by
  refine le_trans (List.sum_nonneg ?_) (weightedDeviation_le_value hweight h)
  rw [List.forall_mem_map]
  exact fun g hg => mul_nonneg (hweight g hg) (deviation_nonneg g _)

/-! ## Answers -/

section
variable (htarget : ∀ g ∈ p.goals, 0 ≤ g.target) (hweight : ∀ g ∈ p.goals, 0 ≤ g.weight)
  {answer : Answer Rat} (h : answer.Settles (Program.ofCalls p.width p.linearCalls))

include htarget hweight h

/-- Either the lower bounds fit and the answer is an optimal point, or they do not and the answer
is that there is none. -/
theorem settled_cases :
    (sumOfMinimums p.vars ≤ p.income ∧ answer.status = .optimal ∧
      (Program.ofCalls p.width p.linearCalls).IsOptimal answer.solution) ∨
    (p.income < sumOfMinimums p.vars ∧ answer.status = .infeasible) := by
  rw [Answer.Settles] at h
  split at h
  next hstatus =>
    exact .inl ⟨(feasible_iff_minimums_fit htarget).mp ⟨_, h.1⟩, hstatus, h⟩
  next hstatus =>
    rw [feasible_iff_minimums_fit htarget, not_le] at h
    exact .inr ⟨h, hstatus⟩
  next =>
    -- a point that costs less than nothing
    obtain ⟨point, hpoint, hgood⟩ := h (-1)
    rw [Program.AsGood, objective_linearCalls.2, if_neg Bool.false_ne_true] at hgood
    exact absurd ((value_nonneg hweight hpoint).trans hgood) (by norm_num)
  next => exact h.elim

end

/-! ## Results -/

/-- A result has the status it was made with. -/
theorem status_of_summarize {status : Status} {iterations : Nat} {r : DeviationResult Rat}
    (h : p.summarize x status iterations = .ok r) : r.status = status := by
  obtain ⟨_, _, h⟩ := bind_eq_ok.mp h
  cases pure_eq_ok.mp h
  rfl

section
variable {backend : Nat → Except (Fault Rat) (Backend Rat)} (hvars : p.vars ≠ [])

include hvars

/-- The answer of the solver decides once the lower bounds are checked. -/
theorem solveLinear_of_answer {b : Backend Rat} {answer : Answer Rat}
    (hcheck : checkMinimums p.vars p.income = .ok ()) (hb : backend p.width = .ok b)
    (hanswer : (b.run p.linearCalls).answer = .ok answer) :
    p.solveLinear backend =
      if answer.status = .optimal then
        p.summarize (answer.solution.take p.vars.length) answer.status answer.iterations
      else .error (.stopped answer.status) := by
  rw [solveLinear, if_neg (by simpa using hvars), hcheck, hb]
  show (b.run p.linearCalls).answer >>= _ = _
  rw [hanswer]
  rfl

/-- Lower bounds that do not pass the check are the fault. -/
theorem solveLinear_of_refused {fault : Fault Rat}
    (hcheck : checkMinimums p.vars p.income = .error fault) :
    p.solveLinear backend = .error fault := by
  rw [solveLinear, if_neg (by simpa using hvars), hcheck]
  rfl

end

/-- The check tolerates a hundredth. -/
theorem checkMinimums_eq (p : DeviationProgram Rat) : checkMinimums p.vars p.income =
    if sumOfMinimums p.vars ≤ p.income + deviationTolerance then .ok ()
    else .error (.infeasibleMinimums (sumOfMinimums p.vars - p.income)) := by
  rw [checkMinimums]
  split
  next hlt => exact (if_neg (not_le.mpr hlt)).symm
  next hle => exact (if_pos (not_lt.mp hle)).symm

/-- The program has a feasible point exactly when the lower bounds fit into the income, and its
objective is bounded by zero. A backend that settles it is thus never without bound: it finds a
result exactly when the lower bounds fit. Otherwise what they are above the income is reported as
the missing amount if it is more than the tolerance of the check, and if it is not, the backend
stops because nothing is feasible. -/
theorem solveLinear_settled (htarget : ∀ g ∈ p.goals, 0 ≤ g.target)
    (hweight : ∀ g ∈ p.goals, 0 ≤ g.weight) :
    ((∃ point, (Program.ofCalls p.width p.linearCalls).Feasible point) ↔
      sumOfMinimums p.vars ≤ p.income) ∧
    (∀ point, (Program.ofCalls p.width p.linearCalls).Feasible point →
      0 ≤ (Program.ofCalls p.width p.linearCalls).value point) ∧
    (checkMinimums p.vars p.income =
      if sumOfMinimums p.vars ≤ p.income + deviationTolerance then .ok ()
      else .error (.infeasibleMinimums (sumOfMinimums p.vars - p.income))) ∧
    ∀ (backend : Nat → Except (Fault Rat) (Backend Rat)) (b : Backend Rat) (answer : Answer Rat),
      backend p.width = .ok b → (b.run p.linearCalls).answer = .ok answer →
      answer.Settles (Program.ofCalls p.width p.linearCalls) →
        answer.status ≠ .unbounded ∧
        (answer.status = .infeasible ↔ p.income < sumOfMinimums p.vars) ∧
        (sumOfMinimums p.vars ≤ p.income ∨ p.vars = [] →
          ∃ r, p.solveLinear backend = .ok r ∧ r.status = .optimal) ∧
        (p.income < sumOfMinimums p.vars → p.vars ≠ [] → p.solveLinear backend =
          .error (if sumOfMinimums p.vars ≤ p.income + deviationTolerance then
            .stopped .infeasible
          else .infeasibleMinimums (sumOfMinimums p.vars - p.income))) := by
  refine ⟨feasible_iff_minimums_fit htarget, fun _ => value_nonneg hweight, checkMinimums_eq p, ?_⟩
  intro backend b answer hb hanswer hsettles
  have hempty (hnil : p.vars = []) : ∃ r, p.solveLinear backend = .ok r ∧ r.status = .optimal := by
    have hlen : ([] : List Rat).length = p.vars.length := by rw [hnil]; rfl
    obtain ⟨r, hr, _⟩ := exists_summarize hlen .optimal 0
    exact ⟨r, (if_pos (by simp [hnil])).trans hr, status_of_summarize hr⟩
  -- The minimums fit, or they do not: the status follows.
  rcases settled_cases htarget hweight hsettles with ⟨hfit, hstatus, hoptimal⟩ | ⟨hlt, hstatus⟩
  · refine ⟨by simp [hstatus], by simp [hstatus, hfit], fun _ => ?_, fun hlt => ?_⟩
    · by_cases hvars : p.vars = []
      · exact hempty hvars
      · have hx := (feasible_linearCalls_iff.mp hoptimal.1).2.1
        obtain ⟨r, hr, _⟩ := exists_summarize hx.length answer.status answer.iterations
        rw [solveLinear_of_answer hvars (checkMinimums_of_le hfit) hb hanswer, if_pos hstatus]
        exact ⟨r, hr, (status_of_summarize hr).trans hstatus⟩
    · exact absurd hfit (not_le.mpr hlt)
  · refine ⟨by simp [hstatus], by simp [hstatus, hlt], fun hfit => ?_, fun _ hvars => ?_⟩
    · exact hempty (hfit.resolve_left (not_le.mpr hlt))
    -- Between income and income plus tolerance the check passes and the backend refuses.
    · have hcheck := checkMinimums_eq p
      split at hcheck
      next hle =>
        rw [solveLinear_of_answer hvars hcheck hb hanswer, hstatus, if_neg (by simp), if_pos hle]
      next hnot => rw [solveLinear_of_refused hvars hcheck, if_neg hnot]

/-- The lower bounds of two needs fit, and an optimal point is found. -/
theorem solveLinear_settled_twoNeeds :
    (∀ g ∈ twoNeeds.goals, 0 ≤ g.target) ∧ (∀ g ∈ twoNeeds.goals, 0 ≤ g.weight) ∧
      sumOfMinimums twoNeeds.vars ≤ twoNeeds.income ∧
      ∃ r, twoNeeds.solveLinear
        (fun n => .ok (.scripted .optimal (twoNeeds.pointOf [60, 40]) n)) = .ok r ∧
        r.status = .optimal := by
  have htarget : ∀ g ∈ twoNeeds.goals, 0 ≤ g.target := by decide
  have hweight : ∀ g ∈ twoNeeds.goals, 0 ≤ g.weight := by decide
  have hfit : sumOfMinimums twoNeeds.vars ≤ twoNeeds.income := by decide +kernel
  have hoptimal := isOptimal_pointOf htarget hweight affords_twoNeeds weightedDeviation_twoNeeds
  obtain ⟨answer, hanswer, hstatus, hbest⟩ := Backend.optimizes_scripted hoptimal
  have hsettles : answer.Settles (Program.ofCalls twoNeeds.width twoNeeds.linearCalls) := by
    rwa [Answer.Settles, hstatus]
  obtain ⟨_, _, _, hsolve⟩ := solveLinear_settled htarget hweight
  obtain ⟨_, _, hfound, _⟩ := hsolve
    (fun n => .ok (.scripted .optimal (twoNeeds.pointOf [60, 40]) n)) _ answer rfl hanswer hsettles
  exact ⟨htarget, hweight, hfit, hfound (.inl hfit)⟩

/-- The rent is half a cent above the income. -/
def overdrawn : DeviationProgram Rat where
  income := 100
  vars := [⟨"rent", "rent", .category, 100 + 1 / 200, 0, by decide +kernel, by decide +kernel⟩]
  goals := [⟨"home", 0, 100, .atLeast, 1, 1, ""⟩]
  index_lt := by decide

/-- The check of the lower bounds lets the rent pass, but the simplex method finds that there is
nothing feasible. -/
theorem overdrawn_stops :
    checkMinimums overdrawn.vars overdrawn.income = .ok () ∧
      (¬∃ point, (Program.ofCalls overdrawn.width overdrawn.linearCalls).Feasible point) ∧
      overdrawn.solveLinear (lpBackend "simplex" none) = .error (.stopped .infeasible) := by
  have hcheck : checkMinimums overdrawn.vars overdrawn.income = .ok () := by
    rw [checkMinimums_eq, if_pos (by decide +kernel)]
  have hrun : (((Simplex.backend overdrawn.width).run overdrawn.linearCalls).answer.toOption.map
      (·.status)) = some .infeasible := by decide +kernel
  obtain ⟨answer, hanswer, hstatus⟩ := exists_of_toOption_map hrun
  refine ⟨hcheck, ?_, ?_⟩
  · rw [feasible_iff_minimums_fit (by decide)]
    decide +kernel
  · rw [solveLinear_of_answer (by decide) hcheck (if_pos rfl) hanswer, hstatus, if_neg (by simp)]

end DeviationProgram

end GoalBudget
