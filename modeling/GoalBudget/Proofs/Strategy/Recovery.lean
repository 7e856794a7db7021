import GoalBudget.Proofs.Fuzzy.Consultation
import GoalBudget.Proofs.Ladder.Consultation
import GoalBudget.Proofs.Program.Stops
import GoalBudget.Proofs.Strategy.Fallback

/-!
# Which faults of a backend are recovered

A backend that is consulted may fail at every statement and when it is to solve. If it stops without
a solution, nothing is lost: the result is that of having no backend. Any other fault of it
surfaces, and so it is the result (`Recovers`). Besides there is only the fault of lower bounds
above the income, and that of an optimal solution that lacks amounts. Whatever happens, the backend
is released once.

So the fallback on a greedy run covers a solver that gives up and not a solver that is misused.
Section 4.4 of the specification has the fallback on any error while setting up or solving; that the
strategies do less is what `simplex_not_recovered` shows.

Main result: `solve_recovers`. The simplex method is such a backend: it takes no binary column,
which every goal needs, so that with it neither strategy has a result (`solve_simplex`).
-/

namespace GoalBudget

variable {γ : Type} [Scores γ] {ρ : Type}

/-- The fault of the check is that of lower bounds above the income, with what is missing. -/
theorem checkMinimums_eq_error {vars : List (Variable Rat)} {income : Rat} {e : Fault Rat}
    (h : checkMinimums vars income = .error e) :
    income + deviationTolerance < sumOfMinimums vars ∧
      e = .infeasibleMinimums (sumOfMinimums vars - income) := by
  unfold checkMinimums at h
  split at h
  next hlt =>
    cases h
    exact ⟨hlt, rfl⟩
  next => cases h

/-- What a procedure guarantees that states the program of some calls, about `n` columns, to a
backend that may fail. -/
structure Recovers (p : GoalProgram Rat γ)
    (solve : (Nat → Option (Backend Rat)) → Except (Fault Rat) ρ)
    (session? : (Nat → Option (Backend Rat)) → Option (Session Rat)) (n : Nat)
    (calls : List (Call Rat)) : Prop where
  /-- A backend that stops makes no difference. -/
  stopped : ∀ backends b, backends n = some b → b.Stops calls → solve backends = solve fun _ => none
  /-- Any other fault of a backend that is asked is the result. -/
  surfaces : p.Undecided → ∀ backends b fault, backends n = some b →
    (b.run calls).answer = .error fault → (∀ status, fault ≠ .stopped status) →
    solve backends = .error fault
  /-- The backend is released once, and nothing happens to it afterwards. -/
  released : ∀ backends session, session? backends = some session → ReleasedOnce session.trace
  /-- There are no faults but these: lower bounds above the income, those of a backend that does
  not stop, and an optimal solution that lacks amounts. -/
  faults : ∀ backends e, solve backends = .error e →
    (p.income + deviationTolerance < sumOfMinimums p.vars ∧
      e = .infeasibleMinimums (sumOfMinimums p.vars - p.income)) ∨
    ∃ b, backends n = some b ∧
      ((b.run calls).answer = .error e ∧ (∀ status, e ≠ .stopped status) ∨
        e = .positionOutOfRange ∧ ∃ answer, (b.run calls).answer = .ok answer ∧
          answer.status = .optimal ∧ answer.solution.length < p.vars.length)

/-- Whoever consults recovers, if alone there is no fault but that of the lower bounds, and a
solution has no other one than that it lacks amounts. -/
theorem Consults.recovers {p : GoalProgram Rat γ}
    {solve : (Nat → Option (Backend Rat)) → Except (Fault Rat) ρ}
    {session? : (Nat → Option (Backend Rat)) → Option (Session Rat)}
    {conclude : List Rat → Except (Fault Rat) ρ} {n : Nat} {calls : List (Call Rat)}
    (h : Consults p solve session? conclude n calls)
    (halone : ∀ e, solve (fun _ => none) = .error e →
      checkMinimums p.vars p.income = .error e)
    (hconclude : ∀ solution e, conclude (p.clampSolution solution) = .error e →
      e = .positionOutOfRange ∧ solution.length < p.vars.length) :
    Recovers p solve session? n calls := by
  constructor
  case stopped =>
    intro backends b hb hstops
    by_cases hopen : p.Undecided
    -- A stopped backend leaves the same program that no backend at all would have answered.
    · rw [h.asked hopen backends b hb, hstops.attempt]
      rfl
    · exact (h.idle hopen backends).2
  case surfaces =>
    intro hopen backends b fault hb hanswer hfault
    rw [h.asked hopen backends b hb]
    -- Of the three ways an attempt ends only the last has a fault that is no solver error.
    rcases b.attempt_cases calls with ⟨hstops, _⟩ | ⟨_, hother, _⟩ | ⟨fault', hother, _, hattempt⟩
    · rcases hstops with ⟨status, hstopped⟩ | ⟨_, hother, _⟩
      · cases hanswer.symm.trans hstopped
        exact absurd rfl (hfault status)
      · cases hanswer.symm.trans hother
    · cases hanswer.symm.trans hother
    · cases hanswer.symm.trans hother
      exact bind_of_eq_error hattempt
  case released =>
    intro backends session hsession
    obtain ⟨_, _, b, _, htrace⟩ := h.of_session hsession
    exact htrace ▸ b.releasedOnce_run calls
  case faults =>
    intro backends e he
    have hminimums (hnone : solve (fun _ => none) = .error e) :=
      checkMinimums_eq_error (halone e hnone)
    by_cases hopen : p.Undecided
    · cases hb : backends n with
      -- Without a backend the only fault is that of the minimums.
      | none => exact .inl (hminimums ((h.absent hopen backends hb).symm.trans he))
      | some b =>
        rw [h.asked hopen backends b hb] at he
        rcases b.attempt_cases calls with ⟨_, hattempt⟩ | ⟨answer, hanswer, hoptimal, hattempt⟩ |
          ⟨fault, hanswer, hfault, hattempt⟩
        · rw [hattempt] at he
          exact .inl (hminimums he)
        · rw [hattempt] at he
          -- An optimal answer is followed by reading the solution, which fails only when it is too
          -- short.
          obtain ⟨hposition, hshort⟩ := hconclude answer.solution e he
          exact .inr ⟨b, rfl, .inr ⟨hposition, answer, hanswer, hoptimal, hshort⟩⟩
        · rw [hattempt] at he
          cases he
          exact .inr ⟨b, rfl, .inl ⟨hanswer, hfault⟩⟩
    · exact .inl (hminimums ((h.idle hopen backends).2.symm.trans he))

/-! ## The simplex method as a backend -/

/-- A procedure that states a binary column surfaces that the simplex method takes none. -/
theorem Consults.solve_simplex {p : GoalProgram Rat γ}
    {solve : (Nat → Option (Backend Rat)) → Except (Fault Rat) ρ}
    {session? : (Nat → Option (Backend Rat)) → Option (Session Rat)}
    {conclude : List Rat → Except (Fault Rat) ρ} {n : Nat} {calls : List (Call Rat)}
    (h : Consults p solve session? conclude n calls) (hopen : p.Undecided)
    (hbinary : ∃ column, .binary column ∈ calls) :
    solve (fun n => some (Simplex.backend n)) = .error .binaryUnsupported := by
  have hanswer := Simplex.answer_run_of_binary h.describe.fits hbinary
  rw [h.asked hopen (fun n => some (Simplex.backend n)) _ rfl, Backend.attempt, hanswer]
  rfl

/-- A fuzzy goal needs a binary column for each piece of its curve. -/
theorem FuzzyProgram.solve_simplex {p : FuzzyProgram Rat} (hopen : p.Undecided)
    (hgoal : ∃ g ∈ p.goals, g.curve.pieces ≠ []) :
    p.solve (fun n => some (Simplex.backend n)) = .error .binaryUnsupported := by
  obtain ⟨g, hg, hpieces⟩ := hgoal
  exact p.consults.solve_simplex hopen (p.exists_binary_mem_calls hg hpieces)

/-- A ladder needs a binary column for each of its levels. -/
theorem LadderProgram.solve_simplex {p : LadderProgram Rat} (hopen : p.Undecided)
    (hgoal : ∃ g ∈ p.goals, g.levels ≠ []) :
    p.solve (fun n => some (Simplex.backend n)) = .error .binaryUnsupported := by
  obtain ⟨g, hg, hlevels⟩ := hgoal
  obtain ⟨calls, hcalls⟩ := p.exists_calls
  exact (consults hcalls).solve_simplex hopen (exists_binary_mem_calls hcalls hg hlevels)

/-! ## Both strategies -/

/-- The two strategies recover from a backend that stops, wherever it does, and from no other
fault of it; the simplex method is never of use to them. -/
theorem solve_recovers (p : FuzzyProgram Rat) (q : LadderProgram Rat) :
    (Recovers p p.solve p.session? p.encoding.width (p.calls p.weighted p.encoding) ∧
      (p.Undecided → (∃ g ∈ p.goals, g.curve.pieces ≠ []) →
        p.solve (fun n => some (Simplex.backend n)) = .error .binaryUnsupported)) ∧
    ∃ calls, q.calls = .ok calls ∧ Recovers q q.solve q.session? q.width calls ∧
      (q.Undecided → (∃ g ∈ q.goals, g.levels ≠ []) →
        q.solve (fun n => some (Simplex.backend n)) = .error .binaryUnsupported) := by
  refine ⟨⟨?_, FuzzyProgram.solve_simplex⟩, ?_⟩
  · refine p.consults.recovers (fun e => FuzzyProgram.checkMinimums_of_alone) fun solution e he =>
      ⟨FuzzyProgram.summarize_eq_error he, not_le.mp fun hlength => ?_⟩
    obtain ⟨r, hr, _⟩ :=
      FuzzyProgram.exists_summarize (GoalProgram.length_clampSolution hlength) .milp 1
    cases he.symm.trans hr
  · obtain ⟨calls, hcalls⟩ := q.exists_calls
    refine ⟨calls, hcalls, ?_, LadderProgram.solve_simplex⟩
    refine (LadderProgram.consults hcalls).recovers
      (fun e => LadderProgram.checkMinimums_of_alone) fun solution e he =>
        ⟨LadderProgram.summarize_eq_error he, not_le.mp fun hlength => ?_⟩
    obtain ⟨r, hr⟩ :=
      LadderProgram.exists_summarize (GoalProgram.length_clampSolution hlength) .milp 1
    cases he.symm.trans hr

/-- A backend that takes nothing and always fails in the same way. -/
def Backend.failing (fault : Fault Rat) : Backend Rat where
  name := "failing"
  accept _ _ := .error fault
  solve _ := .error fault

/-- A backend that fails at once answers with its fault. -/
theorem Backend.answer_failing (fault : Fault Rat) (calls : List (Call Rat)) :
    ((failing fault).run calls).answer = .error fault := by
  cases calls with
  | nil => rfl
  | cons call rest => rfl

/-- The program has variables, money, and lower bounds that fit. -/
theorem undecided_twoWishes : FuzzyProgram.twoWishes.Undecided :=
  ⟨List.cons_ne_nil _ _, checkMinimums_of_le (by decide +kernel), by decide +kernel⟩

/-- The program has variables, money, and lower bounds that fit. -/
theorem undecided_twoRungs : twoRungs.Undecided :=
  ⟨List.cons_ne_nil _ _, checkMinimums_of_le (by decide +kernel), by decide +kernel⟩

/-- A backend that stops at the first statement is recovered from, one that was released before
is not. -/
theorem solve_recovers_twoWishes_twoRungs :
    (FuzzyProgram.twoWishes.Undecided ∧
      FuzzyProgram.twoWishes.solve (fun _ => some (.failing (.stopped .infeasible))) =
        FuzzyProgram.twoWishes.solve fun _ => none) ∧
    twoRungs.Undecided ∧
      twoRungs.solve (fun _ => some (.failing .released)) = .error .released := by
  obtain ⟨⟨hfuzzy, _⟩, calls, _, hladder, _⟩ := solve_recovers FuzzyProgram.twoWishes twoRungs
  refine ⟨⟨undecided_twoWishes, ?_⟩, undecided_twoRungs, ?_⟩
  · exact hfuzzy.stopped _ _ rfl (.inl ⟨.infeasible, Backend.answer_failing _ _⟩)
  · exact hladder.surfaces undecided_twoRungs _ _ .released rfl (Backend.answer_failing _ _) nofun

/-- A program with a result of its own has none with the simplex method as its backend. -/
theorem simplex_not_recovered :
    (∃ r, FuzzyProgram.twoWishes.solve (fun _ => none) = .ok r) ∧
      FuzzyProgram.twoWishes.solve (fun n => some (Simplex.backend n)) =
        .error .binaryUnsupported := by
  constructor
  · rw [FuzzyProgram.solve_of_absent undecided_twoWishes rfl]
    exact FuzzyProgram.exists_solveGreedily undecided_twoWishes.minimums
  · exact FuzzyProgram.solve_simplex undecided_twoWishes
      ⟨_, List.mem_cons_self .., List.cons_ne_nil _ _⟩

end GoalBudget
