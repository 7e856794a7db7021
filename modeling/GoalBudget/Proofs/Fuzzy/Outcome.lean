import GoalBudget.Proofs.Fuzzy.Curves
import GoalBudget.Proofs.Fuzzy.Greedy
import GoalBudget.Proofs.Strategy.Outcome

/-!
# When a fuzzy program has a result

Every budget has a fuzzy program in every scenario: the bounds of each variable and the corners of
each curve are in order, whatever the item (`exists_ofBudget`). Most of this is arithmetic on
multiples of the same amount; for flexible spending the anchors are in order because the target lies
between the minimum and the maximum, or below the minimum, when all of them are at the minimum.

Solving it can only fail in the check of the lower bounds: `solve_decided`. No curve divides by
zero, so the amounts of any solution can be scored (`exists_summarize`), and a summary fails only if
there are fewer amounts than variables (`summarize_eq_error`).

Backends are taken as answering with a status and values known in advance. Such a backend has a
value for every column it was asked for or no solution at all, and in both cases there is a result.
-/

namespace GoalBudget.FuzzyProgram

variable {p : FuzzyProgram Rat} {solution : List Rat} {backends : Nat → Option (Backend Rat)}

/-! ## Making the program -/

/-- A mandatory expense is always added. -/
theorem exists_addMandatory (p : FuzzyProgram Rat) (key : String) (c : Category Rat) :
    ∃ q, p.addMandatory key c = .ok q := by
  have hminimum : 0 ≤ c.minimum := not_lt.mp c.minimum_nonneg
  unfold addMandatory
  dsimp only
  split
  next => exact ⟨p, rfl⟩
  next =>
    obtain ⟨v, hv⟩ : ∃ v, Variable.make key key .category c.minimum
        (if isNonzero c.maximum then c.maximum else c.minimum) = .ok v := by
      split
      next =>
        exact Variable.exists_make _ _ _ hminimum (not_lt.mp c.maximum_nonneg) c.minimum_le_of_pos
      next => exact Variable.exists_make _ _ _ hminimum hminimum fun _ => le_refl _
    obtain ⟨curve, hcurve⟩ : ∃ curve, Curve.trapezoidal
        (c.minimum - 2 * (c.minimum * 0.05)) (c.minimum - c.minimum * 0.05)
        (c.minimum + c.minimum * 0.05) (c.minimum + 2 * (c.minimum * 0.05)) = .ok curve :=
      Curve.exists_trapezoidal (by linarith) (by linarith) (by linarith)
    exact exists_bind hv (exists_bind hcurve (p.exists_addItem v fun _ => rfl))

theorem exists_addDebt (p : FuzzyProgram Rat) (key : String) (d : Debt Rat) :
    ∃ q, p.addDebt key d = .ok q := by
  have hfixed : 0 ≤ d.fixedPayment := not_lt.mp d.fixedPayment_nonneg
  have hminimum : 0 ≤ d.minimumPayment := not_lt.mp d.minimumPayment_nonneg
  unfold addDebt
  rw [greatest_eq_max]
  dsimp only
  have hlow : 0 ≤ if d.isForced then d.fixedPayment else d.minimumPayment := by
    split
    next => exact hfixed
    next => exact hminimum
  have hle : (if d.isForced then d.fixedPayment else d.minimumPayment) ≤
      if d.isForced then d.fixedPayment else max d.currentBalance d.minimumPayment := by
    split
    next => exact le_refl _
    next => exact le_max_right _ _
  generalize (if d.isForced then d.fixedPayment else d.minimumPayment) = low at hlow hle
  generalize (if d.isForced then d.fixedPayment else max d.currentBalance d.minimumPayment) = high
    at hle
  split
  next => exact ⟨p, rfl⟩
  next =>
    obtain ⟨v, hv⟩ := Variable.exists_make key d.name .debt hlow (hlow.trans hle) fun _ => hle
    obtain ⟨curve, hcurve⟩ := Curve.exists_linear hle
    exact exists_bind hv (exists_bind hcurve (p.exists_addItem v fun _ => rfl))

theorem exists_addGoalItem (p : FuzzyProgram Rat) (factor : Rat) (key : String) (g : Goal Rat) :
    ∃ q, p.addGoalItem factor key g = .ok q := by
  unfold addGoalItem
  dsimp only
  split
  next => exact ⟨p, rfl⟩
  next hceiling =>
    have hpos := (not_le.mp hceiling).le
    obtain ⟨v, hv⟩ := Variable.exists_make key g.name .goal (le_refl 0) hpos fun _ => hpos
    obtain ⟨curve, hcurve⟩ := Curve.exists_sCurve 0 (g.target factor * 0.3)
      (g.target factor * 0.7) (g.target factor)
    exact exists_bind hv (exists_bind hcurve (p.exists_addItem v fun _ => rfl))

theorem exists_addFlexible (p : FuzzyProgram Rat) {level : Rat} (hlevel : 0 ≤ level ∧ level ≤ 1)
    (key : String) (c : Category Rat) : ∃ q, p.addFlexible level key c = .ok q := by
  obtain ⟨curve, complete, hcurve⟩ := Curve.exists_flexibleCurve c.bounds_ordered hlevel
  unfold addFlexible
  refine exists_bind hcurve ?_
  dsimp only
  split
  next => exact ⟨p, rfl⟩
  next hcomplete =>
    have hle := minimum_le_complete hlevel.1 hcurve
    obtain ⟨v, hv⟩ := Variable.exists_make key key .category (not_lt.mp c.minimum_nonneg)
      (not_le.mp hcomplete).le fun _ => hle
    exact exists_bind hv (p.exists_addItem v fun _ => rfl)

/-- Every budget has a program in every scenario. -/
theorem exists_ofBudget (b : Budget Rat) (s : Scenario Rat) : ∃ p, ofBudget b s = .ok p := by
  have hlevel : 0 ≤ s.spendingLevel ∧ s.spendingLevel ≤ 1 :=
    ⟨s.zero_le_spendingLevel, s.spendingLevel_le_one⟩
  unfold ofBudget
  refine exists_bind_of_forall (exists_foldlM_of_forall ?_ _ _) fun p => ?_
  · exact fun p e => exists_addMandatory p e.1 e.2
  refine exists_bind_of_forall (exists_foldlM_of_forall ?_ _ _) fun p => ?_
  · exact fun p e => exists_addDebt p e.1 e.2
  refine exists_bind_of_forall (exists_foldlM_of_forall ?_ _ _) fun p => ?_
  · exact fun p e => exists_addGoalItem p s.goalFactor e.1 e.2
  refine exists_foldlM_of_forall ?_ _ _
  exact fun p e => exists_addFlexible p hlevel e.1 e.2

/-! ## Solving it -/

/-- An amount of every variable has a result. -/
theorem exists_summarize (hlen : solution.length = p.vars.length) (method : Method)
    (iterations : Nat) : ∃ r, p.summarize solution method iterations = .ok r ∧
      r.variableValues = p.valuesById solution ∧
      r.isFeasible = nearlyFeasible p.vars p.income solution := by
  have hscore : ∀ g ∈ p.goals, ∃ s, score solution g = .ok s := by
    intro g hg
    have hi : g.index < solution.length := hlen ▸ p.index_lt g hg
    refine ⟨⟨g, solution[g.index], g.curve.degree solution[g.index]⟩, ?_⟩
    rw [score, amountAt_of_lt hi]
    show g.curve.degree? _ >>= _ = _
    rw [Curve.degree?_eq_ok]
    rfl
  obtain ⟨scored, hscored⟩ := exists_mapM_eq_ok hscore
  rw [summarize, hscored]
  exact ⟨_, rfl, rfl, rfl⟩

/-- A result has no other fault than that an amount is missing. -/
theorem summarize_eq_error {method : Method} {iterations : Nat} {e : Fault Rat}
    (h : p.summarize solution method iterations = .error e) : e = .positionOutOfRange := by
  rcases bind_eq_error.mp h with h | ⟨_, _, h⟩
  · obtain ⟨g, _, hscore⟩ := exists_of_mapM_eq_error h
    rcases bind_eq_error.mp hscore with hamount | ⟨x, _, hdegree⟩
    · exact amountAt_eq_error hamount
    · rw [Curve.degree?_eq_ok] at hdegree
      cases hdegree
  · cases h

/-- The greedy run has a result once the lower bounds are covered. -/
theorem exists_solveGreedily (h : checkMinimums p.vars p.income = .ok ()) :
    ∃ r, p.solveGreedily = .ok r := by
  obtain ⟨⟨rounds, f⟩, hgreedy, hsound⟩ := exists_greedy h
  obtain ⟨r, hr, _⟩ := exists_summarize hsound.length .greedy rounds
  exact ⟨r, bind_eq_ok.mpr ⟨_, hgreedy, hr⟩⟩

/-- The scaled weights are always defined. -/
theorem exists_scaledGoals (p : FuzzyProgram Rat) : ∃ goals, p.scaledGoals = .ok goals :=
  ⟨_, mapM_eq_map (fun _ => rfl) p.goals⟩

/-- The columns of the encoding are behind those of the variables. -/
theorem length_le_width (p : FuzzyProgram Rat) (goals : List (FuzzyGoal Rat × Rat)) :
    p.vars.length ≤ (p.encode goals).width := by
  refine List.foldlRecOn goals _ (motive := fun e : Encoding Rat => p.vars.length ≤ e.width)
    (le_refl _) ?_
  intro e he g _
  show p.vars.length ≤ e.width + 1 + _
  omega

/-- Solving a program fails when its lower bounds do not fit into the income, and never else. -/
theorem solve_decided (hincome : 0 ≤ p.income) (hbackends : AnswersAsScripted backends) :
    DecidedBy (checkMinimums p.vars p.income) (p.solve backends) := by
  unfold solve
  split
  next hnil =>
    -- No variables: nothing to check, and no minimum that could be missed.
    have hvars : p.vars = [] := List.isEmpty_iff.mp hnil
    have hlen : ([] : List Rat).length = p.vars.length := congrArg List.length hvars.symm
    obtain ⟨r, hr, _⟩ := exists_summarize hlen .none 0
    rw [hvars, checkMinimums_nil hincome]
    exact ⟨fun _ => ⟨r, hr⟩, nofun⟩
  next =>
    refine .of_check fun hcheck => ?_
    split
    next =>
      obtain ⟨r, hr, _⟩ := exists_summarize (List.length_map _) .none 0
      exact ⟨r, hr⟩
    next =>
      obtain ⟨goals, hgoals⟩ := p.exists_scaledGoals
      refine exists_bind hgoals ?_
      dsimp only
      split
      next => exact exists_solveGreedily hcheck
      next b hb =>
        obtain ⟨answer, hanswer, hlength⟩ := hbackends.attempt hb _
        refine exists_bind hanswer ?_
        cases answer with
        | none => exact exists_solveGreedily hcheck
        | some solution =>
          have hlen := GoalProgram.length_clampSolution
            ((p.length_le_width goals).trans (hlength solution rfl))
          obtain ⟨r, hr, _⟩ := exists_summarize hlen .milp 1
          exact ⟨r, hr⟩

/-- Alone a program has no other fault than that its lower bounds do not fit into the income. -/
theorem checkMinimums_of_alone {e : Fault Rat} (h : p.solve (fun _ => none) = .error e) :
    checkMinimums p.vars p.income = .error e := by
  unfold solve at h
  split at h
  next hnil =>
    have hlen : ([] : List Rat).length = p.vars.length :=
      congrArg List.length (List.isEmpty_iff.mp hnil).symm
    obtain ⟨r, hr, _⟩ := exists_summarize hlen .none 0
    cases h.symm.trans hr
  next =>
    rcases bind_eq_error.mp h with hcheck | ⟨_, hcheck, h⟩
    · exact hcheck
    · split at h
      next =>
        obtain ⟨r, hr, _⟩ := exists_summarize (List.length_map _) .none 0
        cases h.symm.trans hr
      next =>
        obtain ⟨goals, hgoals⟩ := p.exists_scaledGoals
        rw [bind_of_eq_ok hgoals] at h
        obtain ⟨r, hr⟩ := exists_solveGreedily hcheck
        cases h.symm.trans hr

end GoalBudget.FuzzyProgram
