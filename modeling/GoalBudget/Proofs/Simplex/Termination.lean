import GoalBudget.Proofs.Simplex.Cycle
import GoalBudget.Proofs.Simplex.Visits

/-!
# When the simplex method ends

With exact arithmetic and tolerance zero the pivots of a program do not depend on how many are
allowed. Either both phases end, and then one and the same answer is found with every number of
pivots from some number on, or the run circles in one of the phases (`Circles`), and then it ends at
its limit whatever this is. A circle stays at one vertex, so it takes lines with right side zero.
Main result: `solve_ends_unless_circles`.

The stages of a run are taken one after the other. A first phase that ends has brought the
artificial columns as low as they go (`VisitsFirst.best_of_ends`). The second phase starts if that
is zero (`IsReady.turns`), and ends or circles in turn. `pivotBound` is the number of choices of
basic columns for both phases, and so the number from which on the answer is the same.

Statements made before the run do not depend on the number of pivots either (`call_allowing`), so
all of this can be said of the answer to statements, with the number left open (`answerTo`).

The column that enters is the one of the least cost, and this does not exclude circles, although
among lines of equal ratio the one of the least basic column leaves: a program with three rows comes
back to its first tableau after six pivots (`circling_never_ends`). The program has an optimal
point, which is feasible for the method all the time.
-/

namespace GoalBudget

/-- An answer at the limit: as many pivots as allowed were made, and there is no solution. -/
structure Answer.HitsLimit (a : Answer Rat) (maxPivots : Int) : Prop where
  status_eq : a.status = .iterationLimit
  solution_eq : a.solution = []
  iterations_eq : a.iterations = maxPivots

/-- A true answer has one of four statuses. -/
theorem Answer.TrueOf.status_of_ne_limit {p : Program Rat} {maxPivots : Int} {a : Answer Rat}
    (h : a.TrueOf p maxPivots) (hne : a.status ≠ .iterationLimit) :
    a.status = .optimal ∨ a.status = .infeasible ∨ a.status = .unbounded := by
  rw [Answer.TrueOf] at h
  split at h
  next hstatus => exact .inl hstatus
  next hstatus => exact .inr (.inl hstatus)
  next hstatus => exact .inr (.inr hstatus)
  next hstatus => exact absurd hstatus hne
  next => exact h.elim

namespace Simplex

variable {s : Simplex Rat} {t t₁ t₂ u : Tableau Rat} {k : Nat} {maxPivots : Int}

/-- The same program with another number of pivots allowed. -/
def allowing (s : Simplex Rat) (maxPivots : Int) : Simplex Rat := { s with maxPivots }

/-- Whether a program is solved by pivots: it has columns and rows, and no upper bound is below the
lower one. -/
def UsesPivots (s : Simplex Rat) : Prop :=
  s.size ≠ 0 ∧ ¬(s.program.columns.any fun c => c.upper.fallsBelow (c.lower - s.tolerance)) ∧
    ¬s.program.rows.isEmpty

/-- Whether one of the phases comes to a tableau from which its steps lead back to it. -/
def Circles (s : Simplex Rat) : Prop :=
  s.UsesPivots ∧
    ((∃ t, s.VisitsFirst t ∧ t.Circles s.tolerance (layoutOf s.program).width) ∨
      ∃ t, s.VisitsSecond t ∧ t.Circles s.tolerance (layoutOf s.program).artificialStart)

/-- A program that is solved by pivots takes none of the shortcuts. -/
theorem UsesPivots.solve_eq (h : s.UsesPivots) : s.solve = s.solveByPivots := by
  obtain ⟨hsize, hbelow, hrows⟩ := h
  rw [solve, if_neg hsize, if_neg hbelow, if_neg hrows]

/-- A program without rows is solved or unbounded. -/
theorem status_solveByBounds (p : Program Rat) :
    (solveByBounds p).status = .optimal ∨ (solveByBounds p).status = .unbounded := by
  unfold solveByBounds
  split
  next => exact .inr rfl
  next => exact .inl rfl

/-- Without pivots the answer does not depend on their number. -/
theorem solve_of_not_usesPivots (h : ¬s.UsesPivots) :
    ∃ answer, answer.status ≠ .iterationLimit ∧ ∀ max, (s.allowing max).solve = .ok answer := by
  by_cases hsize : s.size = 0
  · exact ⟨_, by simp, fun max => if_pos hsize⟩
  by_cases hbelow : s.program.columns.any fun c => c.upper.fallsBelow (c.lower - s.tolerance)
  · exact ⟨_, by simp [stopped], fun max => (if_neg hsize).trans (if_pos hbelow)⟩
  by_cases hrows : s.program.rows.isEmpty = true
  · refine ⟨solveByBounds s.program, ?_, fun max =>
      (if_neg hsize).trans ((if_neg hbelow).trans (if_pos hrows))⟩
    rcases status_solveByBounds s.program with hstatus | hstatus <;> simp [hstatus]
  · exact absurd ⟨hsize, hbelow, hrows⟩ h

/-! ## The stages of a run -/

/-- The first tableau represents the standard form and the artificial cost. -/
theorem represents_firstStart (hp : s.program.Continuous) :
    s.firstStart.Represents (layoutOf s.program).width (IsSolution s.program)
      (form (layoutOf s.program).artificialCells) :=
  represents_firstTableau fun _ hr => length_standardRows hp hr

/-- No right side of the first tableau is negative. -/
theorem nonneg_firstStart : ∀ a ∈ s.firstStart.lines, 0 ≤ a.rhs :=
  rhs_firstLines fun _ hr => rhs_standardRows hr

theorem length_firstStart : s.firstStart.lines.length = (standardRows s.program).length :=
  length_firstLines

/-- Every tableau of the first phase represents what the first one does. -/
theorem VisitsFirst.represents_phase (hp : s.program.Continuous) (h : s.VisitsFirst t) :
    t.Represents (layoutOf s.program).width (IsSolution s.program)
      (form (layoutOf s.program).artificialCells) := by
  obtain ⟨_, hsteps⟩ := h
  exact hsteps.represents (represents_firstStart hp)

section
variable (hp : s.program.Continuous) (htolerance : s.tolerance = 0)

include hp htolerance

/-- No right side turns negative on the way. -/
theorem VisitsFirst.represents (h : s.VisitsFirst t) :
    t.Represents (layoutOf s.program).width (IsSolution s.program)
      (form (layoutOf s.program).artificialCells) ∧ ∀ a ∈ t.lines, 0 ≤ a.rhs := by
  refine ⟨h.represents_phase hp, ?_⟩
  obtain ⟨_, hsteps⟩ := h
  rw [htolerance] at hsteps
  exact hsteps.invariant (Q := fun t => ∀ a ∈ t.lines, 0 ≤ a.rhs)
    (fun _ _ => Tableau.nonneg_step) nonneg_firstStart

/-- The objective of the first phase is bounded, so it ends for want of a column to enter. -/
theorem VisitsFirst.best_of_ends {status : Status} (h : s.VisitsFirst t)
    (hends : Tableau.Ends s.tolerance (layoutOf s.program).width False t status) :
    t.entering? s.tolerance (layoutOf s.program).width = none := by
  obtain ⟨hrepresents, hnonneg⟩ := h.represents hp htolerance
  cases hends with
  | optimal hnone => exact hnone
  | unbounded hsome hfree =>
    rw [htolerance] at hsome hfree
    obtain ⟨_, _, hcost⟩ := Tableau.entering?_eq_some hsome
    rw [neg_zero] at hcost
    exact (not_first_unbounded hrepresents hnonneg hcost hfree).elim
  | limit hfalse => exact hfalse.elim

/-- Where the first phase has found something to look for, the second one has a tableau to start
from. -/
theorem IsReady.turns (hready : s.IsReady t) (h : s.VisitsFirst t) :
    ∃ t₂, driveOut (layoutOf s.program) s.tolerance 0 (standardRows s.program).length t = .ok t₂ ∧
      Ready (layoutOf s.program) (IsSolution s.program) (form (costCells s.program))
        (s.withTrueCost t₂) ∧
      t₂.lines.length = (standardRows s.program).length := by
  obtain ⟨hrepresents, hnonneg⟩ := h.represents hp htolerance
  obtain ⟨_, hsteps⟩ := h
  obtain ⟨hbest, hfeasible⟩ := hready
  rw [htolerance] at hbest hfeasible ⊢
  have hcost : ∀ j < (layoutOf s.program).width, 0 ≤ t.cost.coeff j := by
    intro j hj
    have hle := Tableau.entering?_eq_none hbest hj (by rwa [hrepresents.prices.width])
    rwa [neg_zero] at hle
  have hsound := sound_of_first_optimal hrepresents hnonneg hcost
  rw [if_neg (by simpa [feasibilityTolerance] using hfeasible)] at hsound
  obtain ⟨t₂, hdrive, hsound₂, hlength, hidle⟩ := driveOut_spec (standardRows s.program).length 0
    hsound fun _ _ hi => absurd hi (Nat.not_lt_zero _)
  have hlength₂ : t₂.lines.length = (standardRows s.program).length :=
    hlength.trans (hsteps.length.trans length_firstStart)
  refine ⟨t₂, hdrive, hsound₂.ready hp ?_, hlength₂⟩
  intro a ha
  obtain ⟨i, hi⟩ := List.mem_iff_getElem?.mp ha
  have hat := (List.getElem?_eq_some_iff.mp hi).1
  exact hidle i a (by omega) hi

/-- The second phase starts without artificial columns in use. -/
theorem TurnsTo.ready (h : s.TurnsTo t) :
    Ready (layoutOf s.program) (IsSolution s.program) (form (costCells s.program)) t ∧
      t.lines.length = (standardRows s.program).length := by
  obtain ⟨t₁, t₂, hvisits, hready, hdrive, rfl⟩ := h
  obtain ⟨t₂', hdrive', hready₂, hlength⟩ := hready.turns hp htolerance hvisits
  cases hdrive.symm.trans hdrive'
  exact ⟨hready₂, hlength⟩

theorem VisitsSecond.ready (h : s.VisitsSecond t) :
    Ready (layoutOf s.program) (IsSolution s.program) (form (costCells s.program)) t := by
  obtain ⟨start, _, hturns, hsteps⟩ := h
  rw [htolerance] at hsteps
  exact hsteps.invariant (fun _ _ h hstep => h.step hstep) (hturns.ready hp htolerance).1

end

/-! ## Runs that circle -/

/-- A first phase that is longer than allowed ends at the limit. -/
theorem solveByPivots_of_longer_first {v : Tableau Rat}
    (h : Tableau.Steps s.tolerance (layoutOf s.program).width k s.firstStart v)
    (hmax : 0 ≤ s.maxPivots) (hk : s.maxPivots < k) :
    ∃ answer, s.solveByPivots = .ok answer ∧ answer.HitsLimit s.maxPivots := by
  obtain ⟨v, hrun⟩ := Tableau.iterate_of_longer h 0 (by omega : s.maxPivots.toNat < k)
  refine ⟨_, (solveByPivots_of_first hrun).trans (if_pos (by simp)), rfl, rfl, ?_⟩
  show ((0 + s.maxPivots.toNat : Nat) : Int) = s.maxPivots
  omega

/-- Once the first phase is done, the second one goes on with the pivots that are left. -/
theorem solveByPivots_of_ready
    (hsteps : Tableau.Steps s.tolerance (layoutOf s.program).width k s.firstStart t₁)
    (hready : s.IsReady t₁) (hk : k ≤ s.maxPivots)
    (hdrive : driveOut (layoutOf s.program) s.tolerance 0 (standardRows s.program).length t₁ =
      .ok t₂) :
    s.solveByPivots = s.secondPhase (layoutOf s.program) k t₂ := by
  have hrun := Tableau.iterate_of_optimal hsteps hready.1 0
    (by omega : k ≤ s.maxPivots.toNat)
  rw [Nat.zero_add] at hrun
  rw [solveByPivots_of_first hrun, if_neg (by simp), if_neg hready.2, hdrive]
  rfl

/-- A run that circles has no end of its own. -/
theorem hitsLimit_of_circles (h : s.Circles) (hmax : 0 ≤ s.maxPivots) :
    ∃ answer, s.solve = .ok answer ∧ answer.HitsLimit s.maxPivots := by
  obtain ⟨hpivots, hphase⟩ := h
  rw [hpivots.solve_eq]
  rcases hphase with ⟨t, ⟨_, hsteps⟩, hcircles⟩ | ⟨t, ⟨_, _, hturns, hsteps₂⟩, hcircles⟩
  · obtain ⟨v, hv⟩ := hcircles.longer hsteps (s.maxPivots.toNat + 1)
    exact solveByPivots_of_longer_first hv hmax (by omega)
  · obtain ⟨t₁, t₂, ⟨k, hsteps⟩, hready, hdrive, rfl⟩ := hturns
    by_cases hk : k ≤ s.maxPivots
    · obtain ⟨v, hv⟩ := hcircles.longer hsteps₂ ((s.maxPivots - k).toNat + 1)
      obtain ⟨v, hrun⟩ := Tableau.iterate_of_longer hv k (Nat.lt_succ_self _)
      rw [solveByPivots_of_ready hsteps hready hk hdrive, secondPhase_of_stop hrun]
      refine ⟨_, if_pos (by simp), rfl, rfl, ?_⟩
      show ((k + (s.maxPivots - k).toNat : Nat) : Int) = s.maxPivots
      omega
    · exact solveByPivots_of_longer_first hsteps hmax (not_le.mp hk)

/-! ## Runs that end -/

/-- How many pivots are enough for both phases, if any number is: twice the number of choices of a
basic column for every row. -/
def pivotBound (p : Program Rat) : Nat := 2 * (layoutOf p).width ^ (standardRows p).length

section
variable (hsteps : Tableau.Steps s.tolerance (layoutOf s.program).width k s.firstStart t₁)

include hsteps

/-- A first phase that ends above zero gives one answer for all larger limits. -/
theorem exists_answer_of_not_ready
    (hbest : t₁.entering? s.tolerance (layoutOf s.program).width = none) (hready : ¬s.IsReady t₁) :
    ∃ answer, answer.status ≠ .iterationLimit ∧
      ∀ max : Int, k ≤ max → (s.allowing max).solveByPivots = .ok answer := by
  refine ⟨stopped .infeasible k, by simp [stopped], fun max hmax => ?_⟩
  have hrun := Tableau.iterate_of_optimal hsteps hbest 0 (by omega : k ≤ max.toNat)
  rw [Nat.zero_add] at hrun
  have hinfeasible : feasibilityTolerance s.tolerance (standardRows s.program) <
      -t₁.cost.rhs := by
    by_contra hfeasible
    exact hready ⟨hbest, hfeasible⟩
  exact (solveByPivots_of_first (s := s.allowing max) hrun).trans
    ((if_neg (by simp)).trans (if_pos hinfeasible))

theorem exists_answer_of_second_ends {j : Nat} {status : Status} (hready : s.IsReady t₁)
    (hdrive : driveOut (layoutOf s.program) s.tolerance 0 (standardRows s.program).length t₁ =
      .ok t₂)
    (hsteps₂ : Tableau.Steps s.tolerance (layoutOf s.program).artificialStart j
      (s.withTrueCost t₂) u)
    (hends : Tableau.Ends s.tolerance (layoutOf s.program).artificialStart False u status) :
    ∃ answer, answer.status ≠ .iterationLimit ∧
      ∀ max : Int, k + j < max → (s.allowing max).solveByPivots = .ok answer := by
  have hsolve (max : Int) (hmax : k + j < max) : (s.allowing max).solveByPivots =
      if status ≠ .optimal then .ok (stopped status (k + j))
      else .ok (solved s.program
        (withinBounds s.program.columns (u.basicPoint s.size)) (k + j)) := by
    have hrun := Tableau.iterate_of_ends hsteps₂ hends k
      (by omega : j < (max - k).toNat)
    have hk : k ≤ (s.allowing max).maxPivots := by
      show (k : Int) ≤ max
      omega
    exact (solveByPivots_of_ready (s := s.allowing max) hsteps hready hk hdrive).trans
      (secondPhase_of_stop (s := s.allowing max) hrun)
  by_cases hoptimal : status = .optimal
  · exact ⟨_, by simp [solved], fun max hmax =>
      (hsolve max hmax).trans (if_neg (not_not.mpr hoptimal))⟩
  · exact ⟨_, hends.ne_limit, fun max hmax => (hsolve max hmax).trans (if_pos hoptimal)⟩

end

/-- A run that does not circle ends in both phases, and then it does not matter how many pivots
are allowed beyond those that it makes. -/
theorem exists_answer_of_not_circles (hp : s.program.Continuous) (htolerance : s.tolerance = 0)
    (h : ¬s.Circles) : ∃ answer, answer.status ≠ .iterationLimit ∧
      ∀ max : Int, pivotBound s.program ≤ max → (s.allowing max).solve = .ok answer := by
  by_cases hpivots : s.UsesPivots
  swap
  · obtain ⟨answer, hstatus, hanswer⟩ := solve_of_not_usesPivots hpivots
    exact ⟨answer, hstatus, fun max _ => hanswer max⟩
  have hsolve (max : Int) : (s.allowing max).solve = (s.allowing max).solveByPivots :=
    UsesPivots.solve_eq (s := s.allowing max) hpivots
  simp only [hsolve]
  have hbound : pivotBound s.program =
    2 * (layoutOf s.program).width ^ (standardRows s.program).length := rfl
  -- The first phase ends or circles, and if it ends ready so does the second.
  rcases Tableau.ends_or_circles htolerance.ge (layoutOf s.program).width
      (represents_firstStart hp) with
    ⟨k, t₁, status, hk, hsteps, hends⟩ | ⟨_, u, hsteps, hcircles⟩
  · rw [length_firstStart] at hk
    have hvisits : s.VisitsFirst t₁ := ⟨k, hsteps⟩
    have hbest := hvisits.best_of_ends hp htolerance hends
    by_cases hready : s.IsReady t₁
    · obtain ⟨t₂, hdrive, hready₂, hlength⟩ := hready.turns hp htolerance hvisits
      rcases Tableau.ends_or_circles htolerance.ge (layoutOf s.program).artificialStart
          hready₂.represents with
        ⟨j, t₃, status, hj, hsteps₂, hends₂⟩ | ⟨j, u, hsteps₂, hcircles⟩
      · have hlength₂ : (s.withTrueCost t₂).lines.length = (standardRows s.program).length :=
          hlength
        rw [hlength₂] at hj
        obtain ⟨answer, hstatus, hanswer⟩ :=
          exists_answer_of_second_ends hsteps hready hdrive hsteps₂ hends₂
        exact ⟨answer, hstatus, fun max hmax => hanswer max (by omega)⟩
      · have hturns : s.TurnsTo (s.withTrueCost t₂) := ⟨t₁, t₂, hvisits, hready, hdrive, rfl⟩
        exact absurd ⟨hpivots, .inr ⟨u, ⟨_, j, hturns, hsteps₂⟩, hcircles⟩⟩ h
    · obtain ⟨answer, hstatus, hanswer⟩ := exists_answer_of_not_ready hsteps hbest hready
      exact ⟨answer, hstatus, fun max hmax => hanswer max (by omega)⟩
  · exact absurd ⟨hpivots, .inl ⟨u, ⟨_, hsteps⟩, hcircles⟩⟩ h

/-! ## The answer -/

/-- A statement does not look at the number of pivots that are allowed. -/
theorem call_allowing (s : Simplex Rat) (c : Call Rat) (max : Int) :
    (s.allowing max).call c = (s.call c).map fun s' => s'.allowing max := by
  unfold Simplex.call
  show (check s.size c >>= _) = _
  cases check s.size c with
  | error fault => rfl
  | ok u => cases c <;> rfl

theorem foldlM_call_allowing (calls : List (Call Rat)) (s : Simplex Rat) (max : Int) :
    calls.foldlM call (s.allowing max) =
      (calls.foldlM call s).map fun s' => s'.allowing max := by
  induction calls generalizing s with
  | nil => rfl
  | cons c rest ih =>
    rw [List.foldlM_cons, List.foldlM_cons, call_allowing]
    cases s.call c with
    | error fault => rfl
    | ok s' => exact ih s'

/-- The same program is stated to a run with another number of pivots allowed. -/
theorem stated_allowing {columns maxPivots : Int} {tolerance : Rat} {calls : List (Call Rat)}
    (h : (make columns maxPivots tolerance >>= fun start => calls.foldlM call start) = .ok s)
    (max : Int) :
    (make columns max tolerance >>= fun start => calls.foldlM call start) =
      .ok (s.allowing max) := by
  obtain ⟨start, hmake, hcalls⟩ := bind_eq_ok.mp h
  unfold make at hmake ⊢
  split at hmake
  next => cases hmake
  next hcolumns =>
    cases hmake
    rw [if_neg hcolumns]
    have hall := foldlM_call_allowing calls ⟨.blank columns.toNat, maxPivots, tolerance⟩ max
    rw [hcalls] at hall
    exact hall

/-- The answer to some statements, with tolerance zero and a number of pivots allowed. -/
def answerTo (columns : Int) (calls : List (Call Rat)) (max : Int) :
    Except (Fault Rat) (Answer Rat) :=
  make columns max 0 >>= fun start => calls.foldlM call start >>= solve

/-- The answer to statements is that of the program they make. -/
theorem answerTo_eq {columns maxPivots : Int} {calls : List (Call Rat)}
    (h : (make columns maxPivots 0 >>= fun start => calls.foldlM call start) = .ok s) (max : Int) :
    answerTo columns calls max = (s.allowing max).solve := by
  obtain ⟨start, hmake, hcalls⟩ := bind_eq_ok.mp (stated_allowing h max)
  rw [answerTo, hmake]
  show (calls.foldlM call start >>= _) = _
  rw [hcalls]
  rfl

/-- Whatever program is stated, with exact arithmetic and tolerance zero: unless the run circles,
there is a number of pivots from which on one and the same answer is found, and it is not that the
limit was hit. If it does circle, every limit is hit. What circles stays at one vertex, at which a
basic column is zero. -/
theorem solve_ends_unless_circles {columns maxPivots : Int} (hcolumns : 1 ≤ columns)
    {calls : List (Call Rat)}
    (h : (make columns maxPivots 0 >>= fun start => calls.foldlM call start) = .ok s) :
    (¬s.Circles → ∃ answer, answer.TrueOf s.program (pivotBound s.program) ∧
      (answer.status = .optimal ∨ answer.status = .infeasible ∨ answer.status = .unbounded) ∧
      ∀ max : Int, pivotBound s.program ≤ max → answerTo columns calls max = .ok answer) ∧
    (s.Circles → ∀ max : Int, 0 ≤ max →
      ∃ answer, answerTo columns calls max = .ok answer ∧ answer.HitsLimit max) ∧
    (∀ t, s.VisitsFirst t → t.Circles 0 (layoutOf s.program).width →
      (∃ a ∈ t.lines, a.rhs = 0) ∧
      ∀ k u, Tableau.Steps 0 (layoutOf s.program).width k t u →
        t.vertex (layoutOf s.program).width = u.vertex (layoutOf s.program).width) ∧
    (∀ t, s.VisitsSecond t → t.Circles 0 (layoutOf s.program).artificialStart →
      (∃ a ∈ t.lines, a.rhs = 0) ∧
      ∀ k u, Tableau.Steps 0 (layoutOf s.program).artificialStart k t u →
        t.vertex (layoutOf s.program).width = u.vertex (layoutOf s.program).width) := by
  obtain ⟨start, hmake, hcalls⟩ := bind_eq_ok.mp h
  have hs : Stated columns.toNat maxPivots 0 s :=
    foldlM_invariant _ (fun _ _ _ _ hs hcall => hs.call hcall) (stated_make hmake) hcalls
  refine ⟨fun hends => ?_, fun hcircles max hmax => ?_, fun t ht hcircles => ?_,
    fun t ht hcircles => ?_⟩
  · have hsize : s.size ≠ 0 := by
      rw [hs.size_eq]
      omega
    obtain ⟨answer, hstatus, hanswer⟩ :=
      exists_answer_of_not_circles hs.continuous hs.tolerance_eq hends
    obtain ⟨answer', hanswer', htrue⟩ := solve_trueOf (s := s.allowing (pivotBound s.program))
      hs.continuous hsize hs.tolerance_eq (Int.natCast_nonneg _)
    -- The answer found without a limit is the answer at the bound, which is true of the program.
    cases (hanswer _ (le_refl _)).symm.trans hanswer'
    exact ⟨answer, htrue, htrue.status_of_ne_limit hstatus,
      fun max hmax => (answerTo_eq h max).trans (hanswer max hmax)⟩
  · rw [answerTo_eq h]
    exact hitsLimit_of_circles (s := s.allowing max) hcircles hmax
  · obtain ⟨hrepresents, hnonneg⟩ := ht.represents hs.continuous hs.tolerance_eq
    exact hcircles.stands hrepresents hnonneg
  · have hready := ht.ready hs.continuous hs.tolerance_eq
    exact hcircles.stands hready.represents hready.nonneg

/-- With enough pivots the program with a redundant row is always solved. -/
theorem solve_ends_unless_circles_redundant :
    (1 : Int) ≤ 2 ∧
      (make 2 10 0 >>= fun start => redundantCalls.foldlM call start) = .ok ⟨redundant, 10, 0⟩ ∧
      ∃ answer, answer.status = .optimal ∧ ∀ max : Int, pivotBound redundant ≤ max →
        answerTo 2 redundantCalls max = .ok answer := by
  have hstated : (make 2 10 0 >>= fun start => redundantCalls.foldlM call start) =
      .ok ⟨redundant, 10, 0⟩ := rfl
  have hrun : ((answerTo 2 redundantCalls (pivotBound redundant)).toOption.map (·.status)) =
      some .optimal := by decide +kernel
  obtain ⟨hends, hcircles, _⟩ := solve_ends_unless_circles (by decide) hstated
  have hnot : ¬(⟨redundant, 10, 0⟩ : Simplex Rat).Circles := by
    intro h
    obtain ⟨answer, hanswer, hlimit⟩ := hcircles h (pivotBound redundant) (Int.natCast_nonneg _)
    rw [hanswer] at hrun
    cases hlimit.status_eq.symm.trans (Option.some.inj hrun)
  obtain ⟨answer, _, _, hanswer⟩ := hends hnot
  rw [hanswer _ (le_refl _)] at hrun
  exact ⟨by decide, hstated, answer, Option.some.inj hrun, hanswer⟩

/-! ## A circle -/

/-- Statements of a program that starts at a vertex with more lines through it than columns. -/
def circlingCalls : List (Call Rat) :=
  [.objective [10, -57, -9, -24] true, .row ⟨[1 / 2, -11 / 2, -5 / 2, 9], .atMost, 0⟩,
    .row ⟨[1 / 2, -3 / 2, -1 / 2, 1], .atMost, 0⟩, .row ⟨[1, 0, 0, 0], .atMost, 1⟩]

/-- The simplex method that has heard them. -/
def circling : Simplex Rat where
  program :=
    { columns := List.replicate 4 ⟨0, .endless, false⟩
      objective := [10, -57, -9, -24]
      maximize := true
      rows := [⟨[1 / 2, -11 / 2, -5 / 2, 9], .atMost, 0⟩, ⟨[1 / 2, -3 / 2, -1 / 2, 1], .atMost, 0⟩,
        ⟨[1, 0, 0, 0], .atMost, 1⟩] }
  maxPivots := 1000
  tolerance := 0

theorem stated_circling :
    (make 4 1000 0 >>= fun start => circlingCalls.foldlM call start) = .ok circling := rfl

/-- Where no artificial column is basic there is none to drive out. -/
theorem driveOut_eq_self {l : Layout} {tolerance : Rat}
    (h : ∀ a ∈ t.lines, a.basic < l.artificialStart) (row count : Nat) :
    driveOut l tolerance row count t = .ok t := by
  induction count generalizing row with
  | zero => rfl
  | succ count ih =>
    rw [driveOut]
    split
    next => rfl
    next line hline =>
      rw [if_neg (not_le.mpr (h line (List.mem_of_getElem? hline))), ih]

theorem turnsTo_circling : circling.TurnsTo (circling.withTrueCost circling.firstStart) := by
  have hready : circling.IsReady circling.firstStart := ⟨by decide +kernel, by decide +kernel⟩
  have hdrive : driveOut (layoutOf circling.program) circling.tolerance 0
      (standardRows circling.program).length circling.firstStart = .ok circling.firstStart :=
    driveOut_eq_self (by decide +kernel) 0 _
  exact ⟨circling.firstStart, circling.firstStart, ⟨0, .none _⟩, hready, hdrive, rfl⟩

/-- After six pivots the three slack columns are basic again. -/
theorem circles_circling : circling.Circles := by
  refine ⟨⟨by decide, by decide, by decide⟩, .inr ⟨_, ⟨_, 0, turnsTo_circling, .none _⟩, ?_⟩⟩
  have hready := (turnsTo_circling.ready ⟨rfl, by decide, by decide⟩ rfl).1
  have hrun : (((circling.withTrueCost circling.firstStart).iterate circling.tolerance
      (layoutOf circling.program).artificialStart 0 6).toOption.map
        fun stop => (stop.pivots, basics stop.tableau.lines)) = some (6, [4, 5, 6]) := by
    decide +kernel
  obtain ⟨stop, hstop, hreads⟩ := exists_of_toOption_map hrun
  obtain ⟨_, k, hstop', _, hpivots, hsteps, _⟩ := Tableau.iterate_spec (le_refl circling.tolerance)
    (layoutOf circling.program).artificialStart 6 0 (circling.withTrueCost circling.firstStart)
  cases hstop.symm.trans hstop'
  rw [Prod.mk.injEq] at hreads
  obtain ⟨hsix, hbasics⟩ := hreads
  refine Tableau.circles_of_basics hready.represents hsteps (by omega) ?_
  rw [hbasics]
  decide +kernel

/-- The circling program has an optimal point. -/
theorem isOptimal_circling : circling.program.IsOptimal [1, 0, 1, 0] := by
  constructor
  · refine ⟨rfl, ?_, ?_⟩
    · simp [circling, Column.Allows, Limit.Allows, List.replicate]
    · simp [circling, Row.Holds, Relation.Holds, dot]
      norm_num
  · rintro other ⟨hlen, hcolumns, hrows⟩
    obtain ⟨a, b, c, d, rfl⟩ : ∃ a b c d, other = [a, b, c, d] := List.length_eq_four.mp hlen
    simp [circling, Column.Allows, Limit.Allows, Row.Holds, Relation.Holds, dot,
      List.replicate] at hcolumns hrows
    simp [circling, Program.AsGood, Program.value, dot]
    linarith

/-- The program has an optimal solution, but the run comes back to where it was, so no number of
pivots is enough to find it. -/
theorem circling_never_ends :
    (make 4 1000 0 >>= fun start => circlingCalls.foldlM call start) = .ok circling ∧
      circling.program.IsOptimal [1, 0, 1, 0] ∧
      (∀ max : Int, 0 ≤ max →
        ∃ answer, answerTo 4 circlingCalls max = .ok answer ∧ answer.HitsLimit max) ∧
      ¬∃ enough : Int, ∀ max, enough ≤ max → ∃ answer,
        answerTo 4 circlingCalls max = .ok answer ∧ answer.status ≠ .iterationLimit := by
  have hlimit (max : Int) (hmax : 0 ≤ max) :
      ∃ answer, answerTo 4 circlingCalls max = .ok answer ∧ answer.HitsLimit max := by
    rw [answerTo_eq stated_circling]
    exact hitsLimit_of_circles (s := circling.allowing max) circles_circling hmax
  refine ⟨stated_circling, isOptimal_circling, hlimit, ?_⟩
  rintro ⟨enough, henough⟩
  obtain ⟨answer, hanswer, hne⟩ := henough (max enough 0) (le_max_left _ _)
  obtain ⟨answer', hanswer', hhits⟩ := hlimit (max enough 0) (le_max_right _ _)
  cases hanswer.symm.trans hanswer'
  exact hne hhits.status_eq

end Simplex

end GoalBudget
