import GoalBudget.Proofs.Fault.Success
import GoalBudget.Proofs.Program.Stated
import GoalBudget.Proofs.Simplex.Bounds
import GoalBudget.Proofs.Simplex.Phases

/-!
# The simplex method answers correctly

With exact arithmetic and tolerance zero every answer of the simplex method is true of the program
it was given (`solve_correct`): an optimal solution is feasible and no point is better, an
infeasible program has no point, an unbounded one has points as good as one likes, and a run that
hits its limit has made as many pivots as allowed.

The points of the program are the solutions of the first tableau to look for
(`feasible_iff_solution`), so what the phases find out about solutions is what the answer says about
points. It is put together in three steps:

* `secondPhase_trueOf` for a run that reaches the second phase: its cost line is the objective of
  the program up to sign and base, so an optimal vertex is an optimal point (`isOptimal_of_vertex`);
* `solveByPivots_trueOf` for both phases: where the first one ends above zero no point exists;
* `solve_trueOf` for the whole method, with the shortcuts for programs without columns, without rows
  and with crossed bounds.

The results are about any program that can be stated: `Stated` is what statements keep true of a
solver, and `Stated.call` says that each of them does. That an answer is returned at all is part of
every statement; none is about "whatever is returned".
-/

namespace GoalBudget.Simplex

variable {p : Program Rat}

/-! ## Points and solutions -/

/-- The layout of the tableau for a program. -/
def layoutOf (p : Program Rat) : Layout := layout p.size (standardRows p)

/-- The solutions of the first tableau for a program. -/
def IsSolution (p : Program Rat) (y : Nat → Rat) : Prop :=
  Solves (firstTableau (layoutOf p) (standardRows p)).lines y

/-- The points of a program are the solutions to look for, seen from the lower bounds. -/
theorem feasible_iff_solution (hp : p.Continuous) {point : List Rat}
    (hlen : point.length = p.size) :
    p.Feasible point ↔ ∃ y, (∀ j < p.size, y j = p.distance point j) ∧ (layoutOf p).Admits y ∧
      IsSolution p y :=
  (feasible_iff hp hlen).trans (holds_iff_solution (fun _ hr => length_standardRows hp hr) _)

/-- A solution without artificial columns in use is a point. -/
theorem feasible_pointAt (hp : p.Continuous) {y : Nat → Rat} (hadmits : (layoutOf p).Admits y)
    (hy : IsSolution p y) : p.Feasible (p.pointAt y) := by
  refine (feasible_iff_solution hp (p.length_pointAt y)).mpr ⟨y, ?_, hadmits, hy⟩
  intro j hj
  exact (p.distance_pointAt y hj).symm

/-- Every point comes from a solution, and its value stands in the objective. -/
theorem exists_solution (hp : p.Continuous) {point : List Rat} (h : p.Feasible point) :
    ∃ y, IsSolution p y ∧ (layoutOf p).Admits y ∧
      p.value point = form p.objective y + p.base := by
  obtain ⟨y, hsame, hadmits, hy⟩ := (feasible_iff_solution hp h.1).mp h
  refine ⟨y, hy, hadmits, ?_⟩
  rw [p.value_eq]
  congr 1
  refine form_congr _ ?_
  intro j hj
  exact (hsame j (by rwa [hp.objective] at hj)).symm

/-- Holding a feasible point within the bounds changes nothing. -/
theorem withinBounds_eq {d : Nat → Rat} {distances : List Rat} (hlen : distances.length = p.size)
    (hsame : ∀ j < p.size, distances.getD j 0 = d j) (h : p.Feasible (p.pointAt d)) :
    withinBounds p.columns distances = p.pointAt d := by
  -- holding a feasible value within its bounds changes nothing
  refine List.ext_getElem? ?_
  intro j
  rw [withinBounds, List.getElem?_zipWith]
  cases hc : p.columns[j]? with
  | none => rw [Program.pointAt, List.getElem?_mapIdx, hc]; rfl
  | some c =>
    have hj : j < p.size := (List.getElem?_eq_some_iff.mp hc).1
    have hd : distances[j]? = some (d j) := by
      rw [← hsame j hj]
      exact getElem?_eq_some_getD (by omega)
    have hpoint := p.getElem?_pointAt d hc
    obtain ⟨hlower, hupper, _⟩ : c.Allows (c.lower + d j) :=
      ((p.feasible_iff_at _).mp h).2.1 j c _ hc hpoint
    rw [hd, hpoint]
    show some (c.upper.hold (greatest (c.lower + d j) c.lower)) = some (c.lower + d j)
    rw [greatest_eq_max, max_eq_left hlower]
    cases hlimit : c.upper with
    | endless => rfl
    | upTo bound =>
      rw [hlimit] at hupper
      rw [Limit.hold_upTo, min_eq_left hupper]

/-! ## The objective of the second phase -/

/-- The objective turned into a cost, over all columns of the tableau. -/
def costCells (p : Program Rat) : List Rat :=
  p.objective.map (p.sign * ·) ++ List.replicate ((layoutOf p).width - (layoutOf p).own) 0

/-- The costs of the second phase are the objective, turned when it is to be made large. -/
theorem form_costCells (y : Nat → Rat) :
    form (costCells p) y = p.sign * form p.objective y := by
  rw [costCells, form_append_zeros, form_map_mul _ _ _ fun _ => rfl]

theorem length_costCells (hp : p.Continuous) : (costCells p).length = (layoutOf p).width := by
  have hown : (layoutOf p).own = p.size := rfl
  have hle := (layoutOf p).own_le
  have hle' := (layoutOf p).artificialStart_le
  rw [costCells, List.length_append, List.length_map, List.length_replicate, hp.objective]
  omega

/-- The lines that the first phase leaves, with the true objective. -/
theorem Sound.ready {f : (Nat → Rat) → Rat} {t : Tableau Rat} (hp : p.Continuous)
    (h : Sound (layoutOf p) (IsSolution p) f t) (hidle : ∀ a ∈ t.lines, a.Idle (layoutOf p)) :
    Ready (layoutOf p) (IsSolution p) (form (costCells p))
      { t with cost := trueCost p (layoutOf p) t.lines } :=
  { represents :=
      { canonical := h.represents.canonical
        prices := prices_priceOut h.represents.canonical (length_costCells hp)
        solves := h.represents.solves }
    nonneg := h.nonneg
    artificial := h.artificial
    idle := hidle }

/-- The point at a vertex that no solution beats is optimal. -/
theorem isOptimal_of_vertex (hp : p.Continuous) {t : Tableau Rat}
    (h : Sound (layoutOf p) (IsSolution p) (form (costCells p)) t)
    (hbest : ∀ y, IsSolution p y → (layoutOf p).Admits y →
      form (costCells p) (t.vertex (layoutOf p).width) ≤ form (costCells p) y) :
    p.IsOptimal (withinBounds p.columns (t.basicPoint p.size)) := by
  have hc := h.represents.canonical
  have hfeasible := feasible_pointAt hp h.admits_vertex
    ((h.represents.solves _).mp (Tableau.solves_vertex hc))
  rw [withinBounds_eq Tableau.length_basicPoint
    (fun j hj => Tableau.basicPoint_eq_vertex hc hj) hfeasible]
  refine ⟨hfeasible, ?_⟩
  intro other hother
  obtain ⟨y, hy, hadmits, hvalue⟩ := exists_solution hp hother
  have hle := hbest y hy hadmits
  rw [form_costCells, form_costCells] at hle
  rw [p.asGood_iff, p.value_pointAt hp, hvalue, mul_add, mul_add]
  exact add_le_add_left hle _

/-! ## The answers -/

/-- What the second phase answers is true, if no artificial column is in use when it starts. -/
theorem secondPhase_trueOf {s : Simplex Rat} {f : (Nat → Rat) → Rat} {t : Tableau Rat}
    (hp : s.program.Continuous) (htolerance : s.tolerance = 0) {made : Nat}
    (hmade : made ≤ s.maxPivots)
    (h : Sound (layoutOf s.program) (IsSolution s.program) f t)
    (hidle : ∀ a ∈ t.lines, a.Idle (layoutOf s.program)) :
    ∃ answer, s.secondPhase (layoutOf s.program) made t = .ok answer ∧
      answer.TrueOf s.program s.maxPivots := by
  obtain ⟨stop, hstop, hcases⟩ :=
    secondPhase_spec made (s.maxPivots - made).toNat (h.ready hp hidle)
  simp only [secondPhase, htolerance, hstop, bind, Except.bind]
  rcases hcases with ⟨hstatus, hpivots⟩ | ⟨hstatus, hbelow⟩ | ⟨hstatus, hsound, hbest⟩
  · rw [hstatus]
    refine ⟨_, rfl, ?_⟩
    show (stop.pivots : Int) = s.maxPivots
    omega
  · rw [hstatus]
    refine ⟨_, rfl, ?_⟩
    -- the bound for the program is one for the costs, moved by the base and turned by the sign
    intro bound
    obtain ⟨y, hy, hadmits, hle⟩ :=
      hbelow (s.program.sign * bound - s.program.sign * s.program.base)
    refine ⟨_, feasible_pointAt hp hadmits hy, ?_⟩
    rw [form_costCells] at hle
    rw [s.program.asGood_iff, s.program.value_pointAt hp]
    linarith
  · rw [hstatus]
    exact ⟨_, rfl, trueOf_solved (isOptimal_of_vertex hp hsound hbest)⟩

/-- What both phases answer is true. -/
theorem solveByPivots_trueOf {s : Simplex Rat} (hp : s.program.Continuous)
    (htolerance : s.tolerance = 0) (hmax : 0 ≤ s.maxPivots) :
    ∃ answer, s.solveByPivots = .ok answer ∧ answer.TrueOf s.program s.maxPivots := by
  have hrows : ∀ r ∈ standardRows s.program, r.coeffs.length = s.program.size :=
    fun _ hr => length_standardRows hp hr
  obtain ⟨stop, hstop, hpivots, hlength, hcases⟩ :=
    firstPhase_spec (represents_firstTableau hrows)
      (rhs_firstLines fun _ hr => rhs_standardRows hr) s.maxPivots.toNat
  have hzero : feasibilityTolerance 0 (standardRows s.program) = 0 := zero_mul _
  simp only [solveByPivots, htolerance, Simplex.size, hstop, hzero, bind, Except.bind]
  rcases hcases with ⟨hstatus, hspent⟩ | ⟨hstatus, hcases⟩
  · rw [hstatus]
    refine ⟨_, rfl, ?_⟩
    show (stop.pivots : Int) = s.maxPivots
    omega
  · rw [hstatus]
    rw [if_neg (by simp)]
    by_cases hpos : 0 < -stop.tableau.cost.rhs
    · rw [if_pos hpos] at hcases ⊢
      refine ⟨_, rfl, ?_⟩
      rintro ⟨point, hpoint⟩
      obtain ⟨y, hy, hadmits, _⟩ := exists_solution hp hpoint
      exact hcases ⟨y, hy, hadmits⟩
    · rw [if_neg hpos] at hcases ⊢
      obtain ⟨t, ht, hsound, hlength', hidle⟩ := driveOut_spec (standardRows s.program).length 0
        hcases fun _ _ hi => absurd hi (Nat.not_lt_zero _)
      rw [ht]
      refine secondPhase_trueOf hp htolerance (by omega) hsound ?_
      intro a ha
      obtain ⟨i, hi⟩ := List.mem_iff_getElem?.mp ha
      refine hidle i a ?_ hi
      -- the lines are as many as the rows, all through the run
      have hlines : (firstTableau (layoutOf s.program) (standardRows s.program)).lines.length =
          (standardRows s.program).length := length_firstLines
      have hat := (List.getElem?_eq_some_iff.mp hi).1
      rw [hlength', hlength] at hat
      rw [Nat.zero_add, ← hlines]
      exact hat

/-- An upper bound below the lower one leaves no point. -/
theorem not_feasible_of_fallsBelow {c : Column Rat} (hc : c ∈ p.columns)
    (h : c.upper.fallsBelow c.lower = true) : ¬∃ point, p.Feasible point := by
  rintro ⟨point, hlen, hbounds, _⟩
  obtain ⟨j, hj⟩ := List.mem_iff_getElem?.mp hc
  have hlt : j < point.length := by
    rw [hlen]
    exact (List.getElem?_eq_some_iff.mp hj).1
  obtain ⟨hlower, hupper, _⟩ : c.Allows point[j] := by
    refine hbounds (c, _) (List.mem_of_getElem? (i := j) ?_)
    rw [List.zip_eq_zipWith, List.getElem?_zipWith, hj, List.getElem?_eq_getElem hlt]
  cases hlimit : c.upper with
  | endless =>
    rw [hlimit] at h
    cases h
  | upTo bound =>
    rw [hlimit] at h hupper
    have hbelow : bound < c.lower := by simpa [Limit.fallsBelow] using h
    exact absurd (le_trans hlower hupper) (not_le.mpr hbelow)

/-- What the method answers is true, shortcuts included. -/
theorem solve_trueOf {s : Simplex Rat} (hp : s.program.Continuous) (hsize : s.size ≠ 0)
    (htolerance : s.tolerance = 0) (hmax : 0 ≤ s.maxPivots) :
    ∃ answer, s.solve = .ok answer ∧ answer.TrueOf s.program s.maxPivots := by
  rw [solve, if_neg hsize]
  simp only [htolerance, sub_zero]
  split
  next hbelow =>
    refine ⟨_, rfl, ?_⟩
    obtain ⟨c, hc, hfalls⟩ := List.any_eq_true.mp hbelow
    exact not_feasible_of_fallsBelow hc hfalls
  next hbelow =>
    split
    next hrows =>
      refine ⟨_, rfl, solveByBounds_trueOf hp (List.isEmpty_iff.mp hrows) ?_ _⟩
      -- No upper bound is below its lower bound, or the scan before would have found it.
      intro c hc
      have hnot : ¬c.upper.fallsBelow c.lower = true :=
        fun hfalls => hbelow (List.any_eq_true.mpr ⟨c, hc, hfalls⟩)
      cases hlimit : c.upper with
      | endless => trivial
      | upTo bound =>
        rw [hlimit] at hnot
        show c.lower ≤ bound
        simpa [Limit.fallsBelow] using hnot
    next => exact solveByPivots_trueOf hp htolerance hmax

/-! ## Programs that can be stated -/

/-- What every statement that is taken keeps: a coefficient for every column, no column of whole
numbers, and the settings of the run. -/
structure Stated (n : Nat) (maxPivots : Int) (tolerance : Rat) (s : Simplex Rat) : Prop where
  continuous : s.program.Continuous
  size_eq : s.size = n
  maxPivots_eq : s.maxPivots = maxPivots
  tolerance_eq : s.tolerance = tolerance

/-- A new solver has no binary columns and the settings it was made with. -/
theorem stated_make {columns maxPivots : Int} {tolerance : Rat} {s : Simplex Rat}
    (h : make columns maxPivots tolerance = .ok s) :
    Stated columns.toNat maxPivots tolerance s := by
  rw [make] at h
  split at h
  next => cases h
  next =>
    cases h
    refine ⟨⟨?_, ?_, ?_⟩, List.length_replicate, rfl, rfl⟩
    · show (List.replicate _ _).length = (List.replicate _ _).length
      rw [List.length_replicate, List.length_replicate]
    · intro r hr
      cases hr
    · intro c hc
      rw [(List.mem_replicate.mp hc).2]

/-- Only lists with one coefficient per column are taken. -/
theorem checkCoeffs_eq_ok {n : Nat} {coeffs : List Rat} {u : Unit}
    (h : checkCoeffs n coeffs = .ok u) : coeffs.length = n := by
  rw [checkCoeffs] at h
  split at h
  next hlen => exact hlen
  next => cases h

/-- A statement that is taken keeps the settings and the kind of columns. -/
theorem Stated.call {n : Nat} {maxPivots : Int} {tolerance : Rat} {s s' : Simplex Rat}
    (hs : Stated n maxPivots tolerance s) {c : Call Rat} (h : s.call c = .ok s') :
    Stated n maxPivots tolerance s' := by
  unfold Simplex.call at h
  obtain ⟨u, hcheck, h⟩ := bind_eq_ok.mp h
  obtain ⟨⟨hobjective, hrows, hcolumns⟩, hsize, hmax, htolerance⟩ := hs
  cases c with
  | objective coeffs maximize =>
    cases h
    exact ⟨⟨checkCoeffs_eq_ok hcheck, hrows, hcolumns⟩, hsize, hmax, htolerance⟩
  | row row =>
    cases h
    refine ⟨⟨hobjective, ?_, hcolumns⟩, hsize, hmax, htolerance⟩
    intro r hr
    rcases List.mem_append.mp hr with hr | hr
    · exact hrows r hr
    · rw [List.mem_singleton.mp hr]
      exact checkCoeffs_eq_ok hcheck
  | bounds column lower upper =>
    cases h
    -- other bounds leave the number of columns as it is, and none becomes integral
    have hlen : (s.program.withBounds column.toNat lower upper).size = s.program.size :=
      List.length_modify _ _ _
    refine ⟨⟨hobjective.trans hlen.symm, fun r hr => (hrows r hr).trans hlen.symm, ?_⟩,
      hlen.trans hsize, hmax, htolerance⟩
    intro c hc
    obtain ⟨j, hj⟩ := List.mem_iff_getElem?.mp hc
    rw [Program.withBounds, List.getElem?_modify] at hj
    obtain ⟨c', hc', rfl⟩ := Option.map_eq_some_iff.mp hj
    have hintegral := hcolumns c' (List.mem_of_getElem? hc')
    split
    next => exact hintegral
    next => exact hintegral
  | binary column => cases hcheck

/-- What a backend of `n` columns is to solve after some statements. -/
def ofCalls (n : Nat) (calls : List (Call Rat)) : Simplex Rat :=
  { blank n with program := .ofCalls n calls }

section
variable {n : Nat} {calls : List (Call Rat)} (h : ∀ c ∈ calls, check n c = .ok ())

include h

/-- A solver that statements were made to is one that can be stated. -/
theorem stated_ofCalls : Stated n 1000 1e-9 (ofCalls n calls) := by
  induction calls using List.reverseRecOn with
  | nil =>
    have hmake : make (n : Int) 1000 1e-9 = .ok (ofCalls n []) := if_neg (by omega)
    exact stated_make hmake
  | append_singleton before c ih =>
    obtain ⟨hbefore, hc⟩ := List.forall_mem_append.mp h
    have hs := ih hbefore
    have hcheck := hc c (List.mem_singleton_self c)
    refine hs.call (c := c) ?_
    unfold Simplex.call
    rw [hs.size_eq, hcheck]
    simp only [ofCalls, Program.ofCalls, List.foldl_append, List.foldl_cons, List.foldl_nil]
    cases c with
    | objective => rfl
    | row => rfl
    | bounds column lower upper =>
      -- A call that passes the check has a column that is a place in the list.
      have hcolumn : ¬column < 0 := by
        intro hneg
        rw [check, if_pos (by omega)] at hcheck
        cases hcheck
      dsimp only
      rw [if_neg hcolumn]
      rfl
    | binary => cases hcheck

/-- A backend that takes all statements solves the program that they describe. -/
theorem answer_run_backend : ((backend n).run calls).answer = (ofCalls n calls).solve :=
  Backend.answer_runFrom_of_accepts (fun _ c hc => h c hc) []

end

/-- Whatever program is stated, with exact arithmetic and tolerance zero: the run ends with an
answer, and the answer is true of the program. -/
theorem solve_correct {columns maxPivots : Int} (hcolumns : 1 ≤ columns) (hmax : 0 ≤ maxPivots)
    {calls : List (Call Rat)} {s : Simplex Rat}
    (h : (make columns maxPivots 0 >>= fun start => calls.foldlM call start) = .ok s) :
    ∃ answer, s.solve = .ok answer ∧ answer.TrueOf s.program maxPivots := by
  obtain ⟨start, hmake, hcalls⟩ := bind_eq_ok.mp h
  have hs : Stated columns.toNat maxPivots 0 s :=
    foldlM_invariant _ (fun _ _ _ _ hs hcall => hs.call hcall) (stated_make hmake) hcalls
  obtain ⟨answer, hanswer, htrue⟩ := solve_trueOf hs.continuous
    (by rw [hs.size_eq]; omega) hs.tolerance_eq (by rwa [hs.maxPivots_eq])
  rw [hs.maxPivots_eq] at htrue
  exact ⟨answer, hanswer, htrue⟩

/-- Statements of a program with a redundant row and a row to be turned. -/
def redundantCalls : List (Call Rat) :=
  [.objective [3, 2] true, .row ⟨[1, 1], .equal, 4⟩, .row ⟨[2, 2], .equal, 8⟩,
    .row ⟨[-1, -3], .atMost, -6⟩, .bounds 0 1 (.upTo 3)]

/-- The program that they state. -/
def redundant : Program Rat :=
  ⟨[⟨1, .upTo 3, false⟩, ⟨0, .endless, false⟩], [3, 2], true,
    [⟨[1, 1], .equal, 4⟩, ⟨[2, 2], .equal, 8⟩, ⟨[-1, -3], .atMost, -6⟩]⟩

/-- Two equal rows: an artificial column stays basic after the first phase, at a line without
entries. -/
theorem solve_correct_redundant :
    (1 : Int) ≤ 2 ∧ (0 : Int) ≤ 10 ∧
      (make 2 10 0 >>= fun start => redundantCalls.foldlM call start) =
        .ok ⟨redundant, 10, 0⟩ ∧ redundant.IsOptimal [3, 1] := by
  have hstated : (make 2 10 0 >>= fun start => redundantCalls.foldlM call start) =
      .ok ⟨redundant, 10, 0⟩ := rfl
  refine ⟨by decide, by decide, hstated, ?_⟩
  obtain ⟨⟨status, solution, objective, pivots⟩, hanswer, htrue⟩ :=
    solve_correct (by decide) (by decide) hstated
  have hrun : ((⟨redundant, 10, 0⟩ : Simplex Rat).solve.toOption.map fun a =>
      (a.status, a.solution)) = some (.optimal, [3, 1]) := by decide +kernel
  rw [hanswer] at hrun
  cases hrun
  exact htrue.1
end GoalBudget.Simplex
