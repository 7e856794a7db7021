import GoalBudget.Proofs.Simplex.Basis
import GoalBudget.Proofs.Simplex.Termination

/-!
# Tableaus represent the program

Every row of the standard form gets a slack column of its own if it is an inequality, and an
artificial column of its own if it needs one to start with (`Balances`). The lines of the first
tableau are these equations (`solves_firstLines_iff`). Every pivot of both phases and every exchange
of an artificial column keeps their solutions, the unit columns of the basis and the meaning of the
cost line, whichever line and column it is made at, so the tolerance has no part in this.

The cost line is the objective of the phase with the basic columns priced out: an entry is the
objective coefficient of the column less what the basic columns of the lines cost there
(`Represents.coeff_cost`), and the right side is the negative of the objective at the vertex
(`Represents.rhs_cost`).

`Depicts` says all this of one tableau. The three stages of a run keep it for the objective of their
phase (`VisitsBetween.represents`, `TurnsTo.represents`, `VisitsSecond.represents`); between the
phases the cost line is written anew, and from the lines as they are then.

Main result: `tableaus_represent_program`. The tolerance matters for one thing only: when it is not
negative no pivot divides by zero, so the run comes to an answer (`exists_solve_of_nonneg`). Which
answer this is with a tolerance above zero is not said here.
-/

namespace GoalBudget.Simplex

/-! ## Rows as equations -/

/-- The slack column of a row, behind those of the rows before it. -/
def Layout.slackColumn (l : Layout) (rows : List (Row Rat)) (i : Nat) : Nat :=
  l.own + ((rows.take i).map slackUse).sum

/-- The artificial column of a row, behind those of the rows before it. -/
def Layout.artificialColumn (l : Layout) (rows : List (Row Rat)) (i : Nat) : Nat :=
  l.artificialStart + ((rows.take i).map artificialUse).sum

/-- Whether slacks and artificial amounts make up for what the own amounts leave of every row: a
slack is added to an "at most" row and taken off an "at least" row, and an artificial amount is
added to a row that is not "at most". -/
def Balances (l : Layout) (rows : List (Row Rat)) (y : Nat → Rat) : Prop :=
  ∀ i r, rows[i]? = some r →
    form r.coeffs y + slackSign r * y (l.slackColumn rows i) +
      artificialUse r * y (l.artificialColumn rows i) = r.rhs

/-- The first lines are the rows with their slack and artificial columns, wherever the columns that
are left begin. -/
theorem solves_firstLines_iff {l : Layout} {slack artificial : Nat} {rows : List (Row Rat)}
    (h : Room l slack artificial rows) (hrows : ∀ r ∈ rows, r.coeffs.length = l.own)
    (y : Nat → Rat) :
    Solves (firstLines l slack artificial rows) y ↔ ∀ i r, rows[i]? = some r →
      form r.coeffs y + slackSign r * y (slack + ((rows.take i).map slackUse).sum) +
        artificialUse r * y (artificial + ((rows.take i).map artificialUse).sum) = r.rhs := by
  induction rows generalizing slack artificial with
  | nil =>
    constructor
    · intro _ i r hi
      cases hi
    · intro _ a ha
      cases ha
  | cons r rest ih =>
    have hr := hrows r (List.mem_cons_self ..)
    -- The head line is the head row at the offsets it starts from.
    have hhead : (firstLine l slack artificial r).Holds y ↔
        form r.coeffs y + slackSign r * y slack + artificialUse r * y artificial = r.rhs := by
      rw [Line.Holds, form_firstLine h hr, rhs_firstLine]
    have hrest := ih h.next fun r' hr' => hrows r' (List.mem_cons_of_mem _ hr')
    rw [firstLines_cons, Solves, List.forall_mem_cons, hhead]
    constructor
    · intro hsolves i r' hi
      obtain ⟨hr, hlines⟩ := hsolves
      cases i with
      | zero =>
        cases hi
        simpa using hr
      | succ i =>
        -- A later row counts its columns from behind those of the head.
        have htail := hrest.mp hlines i r' hi
        rw [List.take_succ_cons, List.map_cons, List.map_cons, List.sum_cons, List.sum_cons,
          ← Nat.add_assoc, ← Nat.add_assoc]
        exact htail
    · intro hbalances
      refine ⟨by simpa using hbalances 0 r rfl, hrest.mpr ?_⟩
      intro i r' hi
      have htail := hbalances (i + 1) r' hi
      rw [List.take_succ_cons, List.map_cons, List.map_cons, List.sum_cons, List.sum_cons,
        ← Nat.add_assoc, ← Nat.add_assoc] at htail
      exact htail

/-- A solution of the first lines balances every row of the standard form. -/
theorem isSolution_iff_balances {p : Program Rat} (hp : p.Continuous) (y : Nat → Rat) :
    IsSolution p y ↔ Balances (layoutOf p) (standardRows p) y :=
  solves_firstLines_iff (room_layout p.size (standardRows p))
    (fun _ hr => length_standardRows hp hr) y

/-! ## The cost line spelled out -/

namespace Tableau

variable {n j : Nat} {t : Tableau Rat} {P Q : (Nat → Rat) → Prop} {f : (Nat → Rat) → Rat}

/-- What a tableau represents depends on the solutions of the system only. -/
theorem Represents.congr (h : t.Represents n P f) (hsame : ∀ y, P y ↔ Q y) :
    t.Represents n Q f where
  canonical := h.canonical
  prices := h.prices
  solves y := (h.solves y).trans (hsame y)

theorem nodup_basics (hc : Canonical n t.lines) : (basics t.lines).Nodup := by
  rw [List.nodup_iff_getElem?_ne_getElem?]
  intro i k hik hk heq
  rw [basics, List.length_map] at hk
  have ha := List.getElem?_eq_getElem (hik.trans hk)
  have hb := List.getElem?_eq_getElem hk
  rw [basics, List.getElem?_map, List.getElem?_map, ha, hb, Option.map_some, Option.map_some,
    Option.some.injEq] at heq
  -- the earlier line would have a one in the basic column of the later one
  have hone := hc.coeff_basic (List.mem_of_getElem? ha)
  rw [heq, hc.unit i k _ _ ha hb, if_neg hik.ne] at hone
  exact zero_ne_one hone

/-- A form at an assignment that is zero off the basic columns. -/
theorem form_eq_sum_basics (hc : Canonical n t.lines) {cells : List Rat} {y : Nat → Rat}
    (hcells : cells.length = n) (hy : ∀ k, k ∉ basics t.lines → y k = 0) :
    form cells y = (t.lines.map fun a => cells.getD a.basic 0 * y a.basic).sum := by
  have hsubset : (basics t.lines).toFinset ⊆ Finset.range cells.length := by
    intro k hk
    obtain ⟨a, ha, rfl⟩ := List.mem_map.mp (List.mem_toFinset.mp hk)
    rw [Finset.mem_range, hcells]
    exact hc.basic_lt a ha
  have hrest : ∀ k ∈ Finset.range cells.length, k ∉ (basics t.lines).toFinset →
      cells.getD k 0 * y k = 0 := by
    intro k _ hk
    rw [hy k fun hmem => hk (List.mem_toFinset.mpr hmem), mul_zero]
  rw [form, ← Finset.sum_subset hsubset hrest, List.sum_toFinset _ (nodup_basics hc), basics,
    List.map_map]
  rfl

section
variable {cells : List Rat} (ht : t.Represents n P (form cells)) (hcells : cells.length = n)
include ht hcells

/-- The right side of the cost line is the negative of what the basic columns cost. -/
theorem Represents.rhs_cost : t.cost.rhs =
    -(t.lines.map fun a => cells.getD a.basic 0 * a.rhs).sum := by
  have hvertex : form cells (t.vertex n) =
      (t.lines.map fun a => cells.getD a.basic 0 * a.rhs).sum := by
    rw [form_eq_sum_basics ht.canonical hcells fun k hk => vertex_nonbasic (not_mem_basics.mp hk)]
    refine congrArg List.sum (List.map_congr_left fun a ha => ?_)
    rw [vertex_basic ht.canonical ha]
  rw [← hvertex, value_vertex ht, neg_neg]

/-- A reduced cost is the coefficient of the column in the objective, less what the basic columns
of the lines cost for it. -/
theorem Represents.coeff_cost (j : Nat) : t.cost.coeff j =
    cells.getD j 0 - (t.lines.map fun a => cells.getD a.basic 0 * a.coeff j).sum := by
  by_cases hj : j ∈ basics t.lines
  · -- the line of the column is the only one that has it
    have hunit : form cells (fun k => if k = j then 1 else 0) = cells.getD j 0 := by
      rw [form_eq_single _ _ fun k hk => by rw [if_neg hk, mul_zero], if_pos rfl, mul_one]
    have hsum : form cells (fun k => if k = j then 1 else 0) =
        (t.lines.map fun a => cells.getD a.basic 0 * a.coeff j).sum := by
      rw [form_eq_sum_basics ht.canonical hcells
        fun k hk => if_neg fun heq : k = j => hk (heq ▸ hj)]
      refine congrArg List.sum (List.map_congr_left fun a ha => ?_)
      rw [ht.canonical.coeff_of_mem_basics ha hj]
    obtain ⟨b, hb, rfl⟩ := List.mem_map.mp hj
    rw [ht.prices.reduced b hb, ← hsum, hunit, sub_self]
  · -- along the ray of the column the objective changes by the reduced cost
    have hnot := not_mem_basics.mp hj
    have hslide : form cells ((t.slide j 1).vertex n) =
        (t.lines.map fun a => cells.getD a.basic 0 * (a.rhs - 1 * a.coeff j)).sum := by
      have hc : Canonical n (t.slide j 1).lines := canonical_slide ht.canonical
      rw [form_eq_sum_basics hc hcells fun k hk => vertex_nonbasic (not_mem_basics.mp hk), slide,
        List.map_map]
      refine congrArg List.sum (List.map_congr_left fun a ha => ?_)
      exact congrArg _ (vertex_basic hc (mem_slide j 1 ha))
    have hsplit : (t.lines.map fun a => cells.getD a.basic 0 * (a.rhs - 1 * a.coeff j)).sum +
        (t.lines.map fun a => cells.getD a.basic 0 * a.coeff j).sum =
          (t.lines.map fun a => cells.getD a.basic 0 * a.rhs).sum := by
      rw [← List.sum_map_add]
      refine congrArg List.sum (List.map_congr_left fun a _ => ?_)
      ring
    have hray : form cells (t.ray n j 1) = -t.cost.rhs + 1 * t.cost.coeff j := value_ray ht hnot
    rw [ray, form_update, hslide, vertex_nonbasic (slide_nonbasic hnot)] at hray
    have hrhs := ht.rhs_cost hcells
    linarith

end

end Tableau

/-! ## Every tableau of a run -/

/-- A tableau over all columns of a program, with given coefficients as the objective: every line
has its basic column to itself, the solutions are those of the rows with slacks and artificial
amounts, and the cost line is the objective with the basic columns priced out. -/
structure Depicts (p : Program Rat) (cells : List Rat) (t : Tableau Rat) : Prop where
  canonical : Canonical (layoutOf p).width t.lines
  solves_iff : ∀ y, Solves t.lines y ↔ Balances (layoutOf p) (standardRows p) y
  prices : t.cost.Prices (layoutOf p).width t.lines (form cells)
  coeff_cost : ∀ j, t.cost.coeff j =
    cells.getD j 0 - (t.lines.map fun a => cells.getD a.basic 0 * a.coeff j).sum
  rhs_cost : t.cost.rhs = -form cells (t.vertex (layoutOf p).width)

/-- A tableau that represents the program depicts it. -/
theorem Tableau.Represents.depicts {p : Program Rat} (hp : p.Continuous) {cells : List Rat}
    (hcells : cells.length = (layoutOf p).width) {t : Tableau Rat}
    (h : t.Represents (layoutOf p).width (IsSolution p) (form cells)) : Depicts p cells t where
  canonical := h.canonical
  solves_iff := (h.congr (isSolution_iff_balances hp)).solves
  prices := h.prices
  coeff_cost := h.coeff_cost hcells
  rhs_cost := by rw [Tableau.value_vertex h, neg_neg]

variable {s : Simplex Rat} {t : Tableau Rat}

section
variable (hp : s.program.Continuous)
include hp

/-- While artificial columns are exchanged the cost is still that of the first phase. -/
theorem VisitsBetween.represents (h : s.VisitsBetween t) :
    t.Represents (layoutOf s.program).width (IsSolution s.program)
      (form (layoutOf s.program).artificialCells) := by
  obtain ⟨t₁, count, hfirst, hdrive⟩ := h
  refine driveOut_invariant ?_ hdrive (hfirst.represents_phase hp)
  intro u u' row column hu hcolumn hpivot
  have hwidth := (layoutOf s.program).artificialStart_le
  exact Tableau.represents_pivot hu (by omega) hpivot

/-- The true objective is priced out over the lines that driving out leaves. -/
theorem TurnsTo.represents (h : s.TurnsTo t) :
    t.Represents (layoutOf s.program).width (IsSolution s.program)
      (form (costCells s.program)) := by
  obtain ⟨t₁, t₂, hfirst, _, hdrive, rfl⟩ := h
  have hbetween : s.VisitsBetween t₂ := ⟨t₁, _, hfirst, hdrive⟩
  have hrepresents := hbetween.represents hp
  exact
    { canonical := hrepresents.canonical
      prices := prices_priceOut hrepresents.canonical (length_costCells hp)
      solves := hrepresents.solves }

/-- In the second phase the cost is that of the program. -/
theorem VisitsSecond.represents (h : s.VisitsSecond t) :
    t.Represents (layoutOf s.program).width (IsSolution s.program)
      (form (costCells s.program)) := by
  obtain ⟨start, k, hturns, hsteps⟩ := h
  exact hsteps.represents (hturns.represents hp)

theorem Visits.solves_iff (h : s.Visits t) (y : Nat → Rat) :
    Solves t.lines y ↔ IsSolution s.program y :=
  (h.reaches.canonical (represents_firstStart hp).canonical).2 y

/-- The points of the program are the solutions without artificial amounts, whichever visited
tableau they are read off. -/
theorem Visits.feasible_iff (h : s.Visits t) (point : List Rat) :
    s.program.Feasible point ↔ point.length = s.size ∧
      ∃ y, (∀ j < s.size, y j = s.program.distance point j) ∧
        (layoutOf s.program).Admits y ∧ Solves t.lines y := by
  simp only [h.solves_iff hp]
  constructor
  · intro hpoint
    exact ⟨hpoint.1, (feasible_iff_solution hp hpoint.1).mp hpoint⟩
  · intro hpoint
    exact (feasible_iff_solution hp hpoint.1).mpr hpoint.2

end

/-! ## The run comes to an answer -/

/-- A column is exchanged only where its coefficient is above the tolerance, so not zero. -/
theorem exists_driveOut {l : Layout} {tolerance : Rat} (htolerance : 0 ≤ tolerance)
    (row count : Nat) (t : Tableau Rat) : ∃ t', driveOut l tolerance row count t = .ok t' := by
  induction count generalizing row t with
  | zero => exact ⟨t, rfl⟩
  | succ count ih =>
    simp only [driveOut]
    split
    next => exact ⟨t, rfl⟩
    next line hline =>
      split
      next =>
        split
        next => exact ih (row + 1) t
        next column hexchange =>
          have hlarge := (exchangeColumn?_eq_some hexchange).2
          rw [magnitude_eq_abs] at hlarge
          have hne : line.coeff column ≠ 0 := abs_pos.mp (lt_of_le_of_lt htolerance hlarge)
          obtain ⟨t₁, hpivot⟩ := Tableau.exists_pivot hline hne
          rw [hpivot]
          exact ih (row + 1) t₁
      next => exact ih (row + 1) t

theorem exists_solve_of_nonneg (htolerance : 0 ≤ s.tolerance) : ∃ answer, s.solve = .ok answer := by
  by_cases hpivots : s.UsesPivots
  swap
  · obtain ⟨answer, _, hanswer⟩ := solve_of_not_usesPivots hpivots
    exact ⟨answer, hanswer s.maxPivots⟩
  obtain ⟨stop, _, hstop, _⟩ := Tableau.iterate_spec htolerance
    (layoutOf s.program).width s.maxPivots.toNat 0 s.firstStart
  rw [hpivots.solve_eq, solveByPivots_of_first hstop]
  split
  next => exact ⟨_, rfl⟩
  next =>
    split
    next => exact ⟨_, rfl⟩
    next =>
      -- Neither the passage between the phases nor the second phase divides by zero.
      obtain ⟨t, hdrive⟩ := exists_driveOut (l := layoutOf s.program) htolerance 0
        (standardRows s.program).length stop.tableau
      obtain ⟨stop₂, _, hstop₂, _⟩ := Tableau.iterate_spec htolerance
        (layoutOf s.program).artificialStart (s.maxPivots - stop.pivots).toNat stop.pivots
        (s.withTrueCost t)
      rw [hdrive]
      show ∃ answer, s.secondPhase _ _ t = .ok answer
      rw [secondPhase_of_stop hstop₂]
      split
      next => exact ⟨_, rfl⟩
      next => exact ⟨_, rfl⟩

/-- Whatever program is stated, with exact arithmetic and any tolerance that is not negative: every
tableau of the first phase, and every one between the phases, depicts the program with the sum of
the artificial columns as its objective, and every tableau of the second phase depicts it with the
true objective. A point is feasible exactly when its distances from the lower bounds are the own
part of a solution of the tableau that is not negative and has no artificial amount. The run comes
to an answer, and an optimal solution that pivots find is read off such a tableau. -/
theorem tableaus_represent_program {columns maxPivots : Int} {tolerance : Rat}
    (htolerance : 0 ≤ tolerance) {calls : List (Call Rat)}
    (h : (make columns maxPivots tolerance >>= fun start => calls.foldlM call start) = .ok s) :
    (∀ t, s.VisitsFirst t ∨ s.VisitsBetween t →
      Depicts s.program (layoutOf s.program).artificialCells t) ∧
    (∀ t, s.VisitsSecond t → Depicts s.program (costCells s.program) t) ∧
    (∀ t, s.Visits t → ∀ point, s.program.Feasible point ↔ point.length = s.size ∧
      ∃ y, (∀ j < s.size, y j = s.program.distance point j) ∧
        (layoutOf s.program).Admits y ∧ Solves t.lines y) ∧
    ∃ answer, s.solve = .ok answer ∧ (s.UsesPivots → answer.status = .optimal →
      ∃ t, s.VisitsSecond t ∧
        answer.solution = withinBounds s.program.columns (t.basicPoint s.size)) := by
  obtain ⟨start, hmake, hcalls⟩ := bind_eq_ok.mp h
  have hs : Stated columns.toNat maxPivots tolerance s :=
    foldlM_invariant _ (fun _ _ _ _ hs hcall => hs.call hcall) (stated_make hmake) hcalls
  have hp := hs.continuous
  have hnonneg : 0 ≤ s.tolerance := by rwa [hs.tolerance_eq]
  refine ⟨?_, ?_, ?_, ?_⟩
  · intro t ht
    have hlength := length_artificialCells (layoutOf s.program)
    rcases ht with ht | ht
    · exact (ht.represents_phase hp).depicts hp hlength
    · exact (ht.represents hp).depicts hp hlength
  · intro t ht
    exact (ht.represents hp).depicts hp (length_costCells hp)
  · intro t ht point
    exact ht.feasible_iff hp point
  · obtain ⟨answer, hanswer⟩ := exists_solve_of_nonneg hnonneg
    refine ⟨answer, hanswer, ?_⟩
    intro hpivots hoptimal
    rw [hpivots.solve_eq] at hanswer
    exact solution_of_solveByPivots hnonneg hanswer hoptimal

/-- With the usual tolerance the program with a redundant row is depicted by the first tableau and
by one of the second phase. -/
theorem tableaus_represent_program_redundant :
    (0 : Rat) ≤ 1e-9 ∧
      (make 2 10 1e-9 >>= fun start => redundantCalls.foldlM call start) =
        .ok ⟨redundant, 10, 1e-9⟩ ∧
      Depicts redundant (layoutOf redundant).artificialCells
        (⟨redundant, 10, 1e-9⟩ : Simplex Rat).firstStart ∧
      ∃ t, (⟨redundant, 10, 1e-9⟩ : Simplex Rat).VisitsSecond t ∧
        Depicts redundant (costCells redundant) t := by
  have htolerance : (0 : Rat) ≤ 1e-9 := by norm_num
  have hstated : (make 2 10 1e-9 >>= fun start => redundantCalls.foldlM call start) =
      .ok ⟨redundant, 10, 1e-9⟩ := rfl
  obtain ⟨hfirst, hsecond, _, answer, hanswer, hread⟩ :=
    tableaus_represent_program htolerance hstated
  have hrun : ((⟨redundant, 10, 1e-9⟩ : Simplex Rat).solve.toOption.map (·.status)) =
      some .optimal := by decide +kernel
  rw [hanswer] at hrun
  have hpivots : (⟨redundant, 10, 1e-9⟩ : Simplex Rat).UsesPivots := by
    unfold UsesPivots
    decide +kernel
  obtain ⟨t, ht, _⟩ := hread hpivots (Option.some.inj hrun)
  exact ⟨htolerance, hstated, hfirst _ (.inl ⟨0, .none _⟩), t, ht, hsecond t ht⟩

end GoalBudget.Simplex
