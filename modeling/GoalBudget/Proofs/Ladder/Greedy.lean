import GoalBudget.Ladder.Solve
import GoalBudget.Proofs.Fuzzy.Greedy

/-!
# The greedy run over ladders stays within bounds

A turn and an upgrade both raise a variable to a level that its bound admits and that the money pays
for. Bounds admit a level with some tolerance, so `Funds.Sound` holds with that much slack: an
amount can be above its upper bound by a hundredth, and never by more. The next level is above the
amount by more than the tolerance, so an upgrade costs something and its reward per cost is defined:
`exists_greedy`.

The lemmas follow the run from the inside out: what is known of the best upgrade (`Upgrade.Fits`),
of the upgrades of a tier, of a tier and of all tiers.

Main result: `solve_values_nonneg`, for every backend and without any.
-/

namespace GoalBudget.LadderProgram

variable {p : LadderProgram Rat} {money : Rat} {f : Funds Rat} {i : Nat}

theorem levelTolerance_nonneg : (0 : Rat) ≤ levelTolerance := by norm_num [levelTolerance]

/-- An admitted level is not beyond the upper bound, but for the tolerance. -/
theorem value_le_of_admits {l : Level Rat} {v : Variable Rat} (h : p.admits i l = true)
    (hv : p.vars[i]? = some v) (hbounded : v.isBounded = true) :
    l.value ≤ v.maximum + levelTolerance := by
  rw [admits, hv] at h
  simpa [hbounded] using h

/-- A variable raised to an admitted level that the money pays for. -/
theorem sound_raiseTo {l : Level Rat} (h : f.Sound p.vars levelTolerance money)
    (hi : i < p.vars.length) (hadmits : p.admits i l = true) (hneeded : 0 ≤ l.value - f.amount i)
    (hleft : l.value - f.amount i ≤ f.left) :
    (f.raiseTo i l.value (l.value - f.amount i)).Sound p.vars levelTolerance money := by
  rw [Funds.raiseTo_eq_give (h.length ▸ hi)]
  refine h.give hi hneeded hleft fun v hv hbounded => ?_
  rw [add_sub_cancel]
  exact value_le_of_admits hadmits hv hbounded

/-- By induction on the levels that are still to be tried. -/
theorem sound_takeHighest {levels : List (Level Rat)} (h : f.Sound p.vars levelTolerance money)
    (hi : i < p.vars.length) : (p.takeHighest i f levels).Sound p.vars levelTolerance money := by
  induction levels with
  | nil => exact h
  | cons l lower ih =>
    unfold takeHighest
    dsimp only
    split
    next => exact ih
    next hadmits =>
      split
      next => exact h
      next hneeded =>
        split
        next hleft =>
          exact sound_raiseTo h hi (by simpa using hadmits) (not_le.mp hneeded).le hleft
        next => exact ih

/-- What a bought upgrade keeps to: a variable of the program, a level that its bound admits,
and what is left. -/
def Upgrade.Fits (p : LadderProgram Rat) (f : Funds Rat) (u : Upgrade Rat) : Prop :=
  ∃ l : Level Rat, u.index < p.vars.length ∧ p.admits u.index l = true ∧ u.value = l.value ∧
    u.cost = l.value - f.amount u.index ∧ 0 ≤ u.cost ∧ u.cost ≤ f.left

/-- The better of two upgrades is found without fault. -/
theorem exists_considerUpgrade {best : Option (Upgrade Rat)} {g : LadderGoal Rat}
    (hg : g ∈ p.goals) (h : ∀ u ∈ best, u.Fits p f) :
    ∃ next, p.considerUpgrade f best g = .ok next ∧ ∀ u ∈ next, u.Fits p f := by
  unfold considerUpgrade
  dsimp only
  split
  next => exact ⟨best, rfl, h⟩
  next l hl =>
    have hfound := List.find?_some hl
    have hgap : f.amount g.index + levelTolerance < l.value := of_decide_eq_true hfound
    -- the next level is above the amount by more than the tolerance, so it costs something
    have htolerance := levelTolerance_nonneg
    have hcost : 0 < l.value - f.amount g.index := sub_pos.mpr (by linarith)
    split
    next => exact ⟨best, rfl, h⟩
    next hadmits =>
      split
      next hcond =>
        rw [Bool.and_eq_true, decide_eq_true_eq, decide_eq_true_eq] at hcond
        rw [quotient_of_pos hcost]
        refine ⟨_, rfl, ?_⟩
        split
        next =>
          rintro u ⟨⟩
          exact ⟨l, p.index_lt g hg, by simpa using hadmits, rfl, rfl, hcost.le, hcond.1⟩
        next => exact h
      next => exact ⟨best, rfl, h⟩

/-- Upgrades are bought without fault and keep the state sound. -/
theorem exists_upgrade {tier : List (LadderGoal Rat)} (made rounds : Nat)
    (htier : ∀ g ∈ tier, g ∈ p.goals) (h : f.Sound p.vars levelTolerance money) :
    ∃ result, p.upgrade tier made rounds f = .ok result ∧
      result.2.Sound p.vars levelTolerance money := by
  induction rounds generalizing made f with
  | zero => exact ⟨_, rfl, h⟩
  | succ rounds ih =>
    obtain ⟨best, hbest, hfits⟩ := exists_foldlM
      (fun best : Option (Upgrade Rat) => ∀ u ∈ best, Upgrade.Fits p f u)
      (fun g hg _ hstate => exists_considerUpgrade (htier g hg) hstate)
      (show ∀ u ∈ none, Upgrade.Fits p f u from nofun)
    unfold upgrade
    rw [hbest]
    cases best with
    | none => exact ⟨_, rfl, h⟩
    | some u =>
      obtain ⟨l, hi, hadmits, hvalue, hcost, hnonneg, hleft⟩ := hfits u rfl
      rw [hcost] at hnonneg hleft
      have hraised := sound_raiseTo h hi hadmits hnonneg hleft
      rw [← hcost, ← hvalue] at hraised
      exact ih (made + 1) hraised

theorem exists_serveTier {state : Nat × Funds Rat} {tier : List (LadderGoal Rat)}
    (htier : ∀ g ∈ tier, g ∈ p.goals) (h : state.2.Sound p.vars levelTolerance money) :
    ∃ result, p.serveTier state tier = .ok result ∧
      result.2.Sound p.vars levelTolerance money := by
  have horder : ∀ g ∈ byDescending (·.weight) tier, g ∈ p.goals := fun g hg =>
    htier g ((byDescending_perm _ _).mem_iff.mp hg)
  have hturns : ((byDescending (·.weight) tier).foldl p.takeTurn state.2).Sound p.vars
      levelTolerance money :=
    List.foldlRecOn _ _ (motive := fun f : Funds Rat => f.Sound p.vars levelTolerance money) h
      fun _ hf g hg => sound_takeHighest hf (p.index_lt g (horder g hg))
  obtain ⟨bought, hbought, hsound⟩ := exists_upgrade 0 500 horder hturns
  exact ⟨_, bind_eq_ok.mpr ⟨bought, hbought, rfl⟩, hsound⟩

/-- The greedy run of a program whose lower bounds fit into the income comes to an end, stays
within bounds and spends no more than there is. -/
theorem exists_greedy (h : checkMinimums p.vars p.income = .ok ()) :
    ∃ result, p.greedy = .ok result ∧
      result.2.Sound p.vars levelTolerance (max p.income (sumOfMinimums p.vars)) := by
  obtain ⟨start, hstart, hsound⟩ := Funds.exists_start levelTolerance_nonneg h
  obtain ⟨result, hresult, hend⟩ := exists_foldlM
    (fun state : Nat × Funds Rat => state.2.Sound p.vars levelTolerance
      (max p.income (sumOfMinimums p.vars)))
    (fun tier htier state hstate =>
      exists_serveTier (fun g hg => mem_of_mem_tiers htier hg) hstate)
    (show (0, (⟨start.1, start.2⟩ : Funds Rat)).2.Sound p.vars levelTolerance _ from hsound)
  exact ⟨result, bind_eq_ok.mpr ⟨start, hstart, hresult⟩, hend⟩

/-- Whatever a greedy run comes to is sound. -/
theorem sound_greedy {result : Nat × Funds Rat} (h : p.greedy = .ok result) :
    result.2.Sound p.vars levelTolerance (max p.income (sumOfMinimums p.vars)) := by
  obtain ⟨_, hstart, _⟩ := bind_eq_ok.mp h
  obtain ⟨_, hcheck, _⟩ := bind_eq_ok.mp hstart
  obtain ⟨result', hresult', hsound⟩ := exists_greedy hcheck
  cases h.symm.trans hresult'
  exact hsound

/-- The amounts of a result are those of the solution. -/
theorem summarize_values {solution : List Rat} {method : Method} {iterations : Nat}
    {r : LadderResult Rat} (h : p.summarize solution method iterations = .ok r) :
    r.variableValues = p.valuesById solution := by
  obtain ⟨_, _, h⟩ := bind_eq_ok.mp h
  cases h
  rfl

/-- A program with variables is solved only if its lower bounds fit into the income. -/
theorem checkMinimums_of_solve {backends : Nat → Option (Backend Rat)} {r : LadderResult Rat}
    (h : p.solve backends = .ok r) : p.vars = [] ∨ checkMinimums p.vars p.income = .ok () := by
  unfold solve at h
  split at h
  next hnil => exact .inl (List.isEmpty_iff.mp hnil)
  next =>
    obtain ⟨_, hcheck, _⟩ := bind_eq_ok.mp h
    exact .inr hcheck

/-- However a program is solved, its result sums up a solution in which nothing is negative. -/
theorem exists_summarize_of_solve {backends : Nat → Option (Backend Rat)} {r : LadderResult Rat}
    (h : p.solve backends = .ok r) : ∃ solution method iterations, (∀ x ∈ solution, 0 ≤ x) ∧
      p.summarize solution method iterations = .ok r := by
  have hgreedy (h : p.solveGreedily = .ok r) :
      ∃ solution method iterations, (∀ x ∈ solution, 0 ≤ x) ∧
        p.summarize solution method iterations = .ok r := by
    obtain ⟨⟨steps, f⟩, hrun, h⟩ := bind_eq_ok.mp h
    exact ⟨f.amounts, .greedy, steps, (sound_greedy hrun).amounts_nonneg, h⟩
  unfold solve at h
  split at h
  next => exact ⟨[], .none, 0, fun _ hx => absurd hx List.not_mem_nil, h⟩
  next =>
    obtain ⟨_, _, h⟩ := bind_eq_ok.mp h
    split at h
    next =>
      refine ⟨_, .none, 0, fun x hx => ?_, h⟩
      obtain ⟨_, _, rfl⟩ := List.mem_map.mp hx
      exact le_refl 0
    next =>
      split at h
      next => exact hgreedy h
      next =>
        obtain ⟨_, _, h⟩ := bind_eq_ok.mp h
        obtain ⟨answer, _, h⟩ := bind_eq_ok.mp h
        cases answer with
        | none => exact hgreedy h
        | some solution =>
          exact ⟨p.clampSolution solution, .milp, 1, GoalProgram.clampSolution_nonneg, h⟩

/-- Whatever a backend answers, no variable gets anything negative. -/
theorem solve_values_nonneg {backends : Nat → Option (Backend Rat)} {r : LadderResult Rat}
    (h : p.solve backends = .ok r) : ∀ e ∈ r.variableValues.entries, 0 ≤ e.2 := by
  obtain ⟨solution, method, iterations, hnonneg, hsummary⟩ := exists_summarize_of_solve h
  rw [summarize_values hsummary]
  exact GoalProgram.valuesById_nonneg hnonneg

end GoalBudget.LadderProgram
