import GoalBudget.Proofs.Ladder.Greedy
import GoalBudget.Proofs.Strategy.Outcome

/-!
# When a program with ladders has a result

Every budget has a program with ladders in every scenario: the bounds of each variable are in order,
and no ladder is without levels (`exists_ofBudget`). The upper bound of a debt is the greater of its
balance and the payment due, and that of flexible spending leaves a fifth above the maximum, so none
is below the lower one.

Solving it can only fail in the check of the lower bounds: `solve_decided`. With exact numbers the
multipliers of the tiers are always defined, so there is always a program to state (`exists_calls`).
Alone, without any backend, the check is the only fault there is (`checkMinimums_of_alone`).
-/

namespace GoalBudget.LadderProgram

variable {p : LadderProgram Rat} {solution : List Rat} {backends : Nat → Option (Backend Rat)}

/-! ## Making the program -/

/-- A goal with some level can be added with its variable. -/
theorem exists_addLadder (p : LadderProgram Rat) (v : Variable Rat) (key : String)
    {levels : List (Level Rat)} (hlevels : levels ≠ []) (priority : Int) (weight : Rat)
    (description : String) : ∃ q, p.addLadder v key levels priority weight description = .ok q := by
  have hcheck : LadderGoal.checkLevels key levels = .ok (sortLevels levels) :=
    if_neg fun hnil => hlevels (List.isEmpty_iff.mp hnil)
  exact exists_bind hcheck (p.exists_addItem v fun _ => rfl)

/-- A mandatory expense is always added. -/
theorem exists_addMandatory (p : LadderProgram Rat) (key : String) (c : Category Rat) :
    ∃ q, p.addMandatory key c = .ok q := by
  obtain ⟨v, hv⟩ := Variable.exists_make key key .category (not_lt.mp c.minimum_nonneg)
    (not_lt.mp c.maximum_nonneg) c.minimum_le_of_pos
  exact exists_bind hv (p.exists_addLadder v key (List.cons_ne_nil _ _) 1 1 "")

theorem exists_addDebt (p : LadderProgram Rat) (share : Rat) (key : String) (d : Debt Rat) :
    ∃ q, p.addDebt share key d = .ok q := by
  have hdue := d.scheduledPayment_nonneg
  have hle : d.scheduledPayment ≤ greatest d.currentBalance d.scheduledPayment := by
    rw [greatest_eq_max]
    exact le_max_right _ _
  unfold addDebt
  dsimp only
  split
  next =>
    obtain ⟨v, hv⟩ := Variable.exists_make key d.name .debt hdue hdue fun _ => le_refl _
    exact exists_bind hv (p.exists_addLadder v key (List.cons_ne_nil _ _) 2 _ "")
  next =>
    obtain ⟨v, hv⟩ := Variable.exists_make key d.name .debt hdue (hdue.trans hle) fun _ => hle
    exact exists_bind hv (p.exists_addLadder v key (List.cons_ne_nil _ _) 2 _ "")

theorem exists_addGoalItem (p : LadderProgram Rat) (factor : Rat) (key : String) (g : Goal Rat) :
    ∃ q, p.addGoalItem factor key g = .ok q := by
  unfold addGoalItem
  dsimp only
  split
  next => exact ⟨p, rfl⟩
  next hceiling =>
    have hpos := (not_le.mp hceiling).le
    obtain ⟨v, hv⟩ := Variable.exists_make key g.name .goal (le_refl 0) hpos fun _ => hpos
    exact exists_bind hv (p.exists_addLadder v key (List.cons_ne_nil _ _) 3 _ g.name)

theorem exists_addFlexible (p : LadderProgram Rat) (key : String) (c : Category Rat) :
    ∃ q, p.addFlexible key c = .ok q := by
  have hminimum : 0 ≤ c.minimum := not_lt.mp c.minimum_nonneg
  have hle : c.minimum ≤ (if 0 < c.maximum then c.maximum else c.minimum * 1.5) * 1.2 := by
    split
    next hpos =>
      have hle := c.minimum_le_of_pos hpos
      linarith
    next => linarith
  unfold addFlexible
  dsimp only
  generalize (if 0 < c.maximum then c.maximum else c.minimum * 1.5) = top at hle
  split
  next => exact ⟨p, rfl⟩
  next =>
    obtain ⟨v, hv⟩ := Variable.exists_make key key .category hminimum (hminimum.trans hle)
      fun _ => hle
    exact exists_bind hv (p.exists_addLadder v key (List.cons_ne_nil _ _) _ _ "")

/-- Every budget has a program in every scenario. -/
theorem exists_ofBudget (b : Budget Rat) (s : Scenario Rat) : ∃ p, ofBudget b s = .ok p := by
  unfold ofBudget
  refine exists_bind_of_forall (exists_foldlM_of_forall ?_ _ _) fun p => ?_
  · exact fun p e => exists_addMandatory p e.1 e.2
  refine exists_bind_of_forall (exists_foldlM_of_forall ?_ _ _) fun p => ?_
  · exact fun p e => exists_addDebt p s.shares.debtExtra e.1 e.2
  refine exists_bind_of_forall (exists_foldlM_of_forall ?_ _ _) fun p => ?_
  · exact fun p e => exists_addGoalItem p s.goalFactor e.1 e.2
  refine exists_foldlM_of_forall ?_ _ _
  exact fun p e => exists_addFlexible p e.1 e.2

/-! ## Solving it -/

/-- An amount of every variable has a result. -/
theorem exists_summarize (hlen : solution.length = p.vars.length) (method : Method)
    (iterations : Nat) : ∃ r, p.summarize solution method iterations = .ok r := by
  have hstanding : ∀ g ∈ p.goals, ∃ s : Standing Rat,
      (do return ⟨g, ← amountAt solution g.index⟩ : Except (Fault Rat) (Standing Rat)) = .ok s := by
    intro g hg
    have hi : g.index < solution.length := hlen ▸ p.index_lt g hg
    exact ⟨⟨g, solution[g.index]⟩, by rw [amountAt_of_lt hi]; rfl⟩
  obtain ⟨standings, hstandings⟩ := exists_mapM_eq_ok hstanding
  exact exists_bind hstandings ⟨_, rfl⟩

/-- A result has no other fault than that an amount is missing. -/
theorem summarize_eq_error {method : Method} {iterations : Nat} {e : Fault Rat}
    (h : p.summarize solution method iterations = .error e) : e = .positionOutOfRange := by
  rcases bind_eq_error.mp h with h | ⟨_, _, h⟩
  · obtain ⟨g, _, hstanding⟩ := exists_of_mapM_eq_error h
    rcases bind_eq_error.mp hstanding with hamount | ⟨_, _, hnothing⟩
    · exact amountAt_eq_error hamount
    · cases hnothing
  · cases h

/-- The greedy run has a result once the lower bounds are covered. -/
theorem exists_solveGreedily (h : checkMinimums p.vars p.income = .ok ()) :
    ∃ r, p.solveGreedily = .ok r := by
  obtain ⟨⟨steps, f⟩, hgreedy, hsound⟩ := exists_greedy h
  exact exists_bind hgreedy (exists_summarize hsound.length .greedy steps)

/-- The statements are always defined. -/
theorem exists_calls (p : LadderProgram Rat) : ∃ calls, p.calls = .ok calls := by
  have hrungs : ∃ rungs, p.rungs = .ok rungs := by
    unfold rungs
    exact exists_bind (mapM_eq_map (fun _ => rfl) p.goals) ⟨_, rfl⟩
  obtain ⟨rungs, hrungs⟩ := hrungs
  exact exists_bind hrungs ⟨_, rfl⟩

/-- Solving a program fails when its lower bounds do not fit into the income, and never else. -/
theorem solve_decided (hincome : 0 ≤ p.income) (hbackends : AnswersAsScripted backends) :
    DecidedBy (checkMinimums p.vars p.income) (p.solve backends) := by
  unfold solve
  split
  next hnil =>
    have hvars : p.vars = [] := List.isEmpty_iff.mp hnil
    have hlen : ([] : List Rat).length = p.vars.length := congrArg List.length hvars.symm
    have hresult := exists_summarize hlen .none 0
    rw [hvars, checkMinimums_nil hincome]
    exact ⟨fun _ => hresult, nofun⟩
  next =>
    refine .of_check fun hcheck => ?_
    split
    next => exact exists_summarize (List.length_map _) .none 0
    next =>
      split
      next => exact exists_solveGreedily hcheck
      next b hb =>
        obtain ⟨calls, hcalls⟩ := p.exists_calls
        obtain ⟨answer, hanswer, hlength⟩ := hbackends.attempt hb calls
        refine exists_bind hcalls (exists_bind hanswer ?_)
        cases answer with
        | none => exact exists_solveGreedily hcheck
        | some solution =>
          have hwidth : p.vars.length ≤ p.width := Nat.le_add_right _ _
          exact exists_summarize (GoalProgram.length_clampSolution
            (hwidth.trans (hlength solution rfl))) .milp 1

/-- Alone a program has no other fault than that its lower bounds do not fit into the income. -/
theorem checkMinimums_of_alone {e : Fault Rat} (h : p.solve (fun _ => none) = .error e) :
    checkMinimums p.vars p.income = .error e := by
  unfold solve at h
  split at h
  next hnil =>
    have hlen : ([] : List Rat).length = p.vars.length :=
      congrArg List.length (List.isEmpty_iff.mp hnil).symm
    obtain ⟨r, hr⟩ := exists_summarize hlen .none 0
    cases h.symm.trans hr
  next =>
    rcases bind_eq_error.mp h with hcheck | ⟨_, hcheck, h⟩
    · exact hcheck
    · split at h
      next =>
        obtain ⟨r, hr⟩ := exists_summarize (List.length_map _) .none 0
        cases h.symm.trans hr
      next =>
        obtain ⟨r, hr⟩ := exists_solveGreedily hcheck
        cases h.symm.trans hr

end GoalBudget.LadderProgram
