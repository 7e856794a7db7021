import GoalBudget.Proofs.Simplex.Run
import GoalBudget.Proofs.Simplex.Start
import GoalBudget.Proofs.Simplex.Vertex
import GoalBudget.Simplex.Solver

/-!
# The two phases

The first phase looks for a solution without artificial columns. Its objective is not negative on
any solution to look for, so it does not run away, and where it ends above zero there is none
(`firstPhase_spec`).

Otherwise the artificial columns that are still basic are zero. `driveOut` exchanges them, and where
it cannot the line has no entry in the other columns: it is idle (`driveOut_spec`). The exchange is
a pivot at a line with right side zero, possibly at a negative coefficient; it moves no right side,
and so keeps the vertex (`Sound.pivot_of_rhs_eq_zero`).

No step of the second phase touches an idle line (`Ready.step`), so all of its vertices and rays are
without artificial columns, and the way it ends says what is true of the program
(`secondPhase_spec`).

All of this is with tolerance zero. `Sound` is what holds throughout both phases, and `Ready` what
holds in addition when the second one begins.
-/

namespace GoalBudget.Simplex

variable {l : Layout} {P : (Nat → Rat) → Prop} {f : (Nat → Rat) → Rat} {t t' : Tableau Rat}

/-- A tableau whose vertex is a solution to look for. -/
structure Sound (l : Layout) (P : (Nat → Rat) → Prop) (f : (Nat → Rat) → Rat) (t : Tableau Rat) :
    Prop where
  represents : t.Represents l.width P f
  nonneg : ∀ a ∈ t.lines, 0 ≤ a.rhs
  artificial : ∀ a ∈ t.lines, l.artificialStart ≤ a.basic → a.rhs = 0

/-- A line of an artificial column that says nothing about the other columns. -/
def Line.Idle (l : Layout) (a : Line Rat) : Prop :=
  l.artificialStart ≤ a.basic → ∀ j < l.artificialStart, a.coeff j = 0

/-- The vertex of a sound tableau has no negative column. -/
theorem Sound.admits_vertex (h : Sound l P f t) : l.Admits (t.vertex l.width) := by
  refine ⟨fun j _ => Tableau.vertex_nonneg h.represents.canonical h.nonneg j, ?_⟩
  intro j hj _
  refine Tableau.vertex_induction h.represents.canonical
    (Q := fun j v => l.artificialStart ≤ j → v = 0) ?_ (fun _ _ => rfl) hj
  exact h.artificial

/-! ## Driving out artificial columns -/

/-- A line that no exchange is found for has no entry in the own and slack columns. -/
theorem exchangeColumn?_eq_none {a : Line Rat} (ha : a.cells.length = l.width)
    (h : exchangeColumn? l 0 a = none) : ∀ j < l.artificialStart, a.coeff j = 0 := by
  intro j hj
  have hwidth := l.artificialStart_le
  have hfind := List.find?_eq_none.mp (Option.map_eq_none_iff.mp h)
  have hmem : (a.coeff j, j) ∈ (a.cells.take l.artificialStart).zipIdx := by
    rw [List.mk_mem_zipIdx_iff_getElem?, List.getElem?_take, if_pos hj]
    exact getElem?_eq_some_getD (by omega)
  have hsmall := hfind _ hmem
  simpa using hsmall

/-- An exchange is made in an own or slack column with a coefficient that is not zero. -/
theorem exchangeColumn?_eq_some {tolerance : Rat} {a : Line Rat} {column : Nat}
    (h : exchangeColumn? l tolerance a = some column) :
    column < l.artificialStart ∧ tolerance < magnitude (a.coeff column) := by
  obtain ⟨⟨c, j⟩, hfind, rfl⟩ := Option.map_eq_some_iff.mp h
  have hmem := List.mem_of_find?_eq_some hfind
  have hlarge := List.find?_some hfind
  rw [List.mk_mem_zipIdx_iff_getElem?, List.getElem?_take] at hmem
  split at hmem
  next hj =>
    refine ⟨hj, ?_⟩
    rw [Line.coeff, List.getD_eq_getElem?_getD, hmem, Option.getD_some]
    simpa only [decide_eq_true_eq] using hlarge
  next => cases hmem

/-- A pivot at a line with right side zero leaves all right sides as they are. -/
theorem Sound.pivot_of_rhs_eq_zero (h : Sound l P f t) {row column : Nat} {line : Line Rat}
    (hline : t.lines[row]? = some line) (hrhs : line.rhs = 0) (hcolumn : column < l.width)
    (hpivot : t.pivot row column = .ok t') : Sound l P f t' := by
  have hzero : (line.normalize column).rhs = 0 := by
    show line.rhs / line.coeff column = 0
    rw [hrhs, zero_div]
  -- The row of the pivot has a right-hand side of zero, so eliminating it changes no other.
  have hkeep (a : Line Rat) : ((line.normalize column).eliminate column a).rhs = a.rhs := by
    rw [rhs_eliminate, hzero, mul_zero, sub_zero]
  refine ⟨Tableau.represents_pivot h.represents hcolumn hpivot, ?_, ?_⟩
  · intro a' ha'
    obtain ⟨i, hi⟩ := List.mem_iff_getElem?.mp ha'
    rcases (Tableau.getElem?_pivot hpivot hline).mp hi with ⟨_, rfl⟩ | ⟨_, a, ha, rfl⟩
    · rw [hzero]
    · rw [hkeep]
      exact h.nonneg a (List.mem_of_getElem? ha)
  · intro a' ha' hbasic
    obtain ⟨i, hi⟩ := List.mem_iff_getElem?.mp ha'
    rcases (Tableau.getElem?_pivot hpivot hline).mp hi with ⟨_, rfl⟩ | ⟨_, a, ha, rfl⟩
    · exact hzero
    · rw [basic_eliminate] at hbasic
      rw [hkeep]
      exact h.artificial a (List.mem_of_getElem? ha) hbasic

/-- A column that an idle line does not have leaves it idle when it enters elsewhere, and the
line that it enters is solved for a column that is not artificial. -/
theorem Line.Idle.pivot {row column i : Nat} {line a' : Line Rat}
    (hc : Canonical l.width t.lines) (hpivot : t.pivot row column = .ok t')
    (hline : t.lines[row]? = some line) (hcolumn : column < l.artificialStart)
    (hidle : ∀ a, i ≠ row → t.lines[i]? = some a → a.Idle l) (ha' : t'.lines[i]? = some a') :
    a'.Idle l := by
  intro hbasic j hj
  rcases (Tableau.getElem?_pivot hpivot hline).mp ha' with ⟨_, rfl⟩ | ⟨hi, a, ha, rfl⟩
  · exact absurd hcolumn (not_lt.mpr hbasic)
  · rw [basic_eliminate] at hbasic
    rw [coeff_eliminate _ _ _ _ (hc.length_normalize ha hline column), hidle a hi ha hbasic j hj,
      hidle a hi ha hbasic column hcolumn, zero_mul, sub_zero]

/-- Driving out deals with one line after the other; a line dealt with is solved for a column that
is not artificial, or idle. -/
theorem driveOut_spec (count row : Nat) (h : Sound l P f t)
    (hdone : ∀ i a, i < row → t.lines[i]? = some a → a.Idle l) :
    ∃ t', driveOut l 0 row count t = .ok t' ∧ Sound l P f t' ∧
      t'.lines.length = t.lines.length ∧
      ∀ i a, i < row + count → t'.lines[i]? = some a → a.Idle l := by
  induction count generalizing row t with
  | zero => exact ⟨t, rfl, h, rfl, hdone⟩
  | succ count ih =>
    -- with the line at `row` idle as it is, the rest goes on behind it
    have hskip (hrow : ∀ a, t.lines[row]? = some a → a.Idle l) :
        ∃ t', driveOut l 0 (row + 1) count t = .ok t' ∧ Sound l P f t' ∧
          t'.lines.length = t.lines.length ∧
          ∀ i a, i < row + (count + 1) → t'.lines[i]? = some a → a.Idle l := by
      obtain ⟨t', ht', hsound, hlength, hidle⟩ := ih (row + 1) h <| by
        intro i a hi ha
        rcases Nat.lt_succ_iff_lt_or_eq.mp hi with hi | rfl
        · exact hdone i a hi ha
        · exact hrow a ha
      exact ⟨t', ht', hsound, hlength, fun i a hi => hidle i a (by omega)⟩
    simp only [driveOut]
    split
    next hnone =>
      refine ⟨t, rfl, h, rfl, ?_⟩
      intro i a hi ha
      -- no line stands at `row`, so none stands behind it either
      have hlen := List.getElem?_eq_none_iff.mp hnone
      have hat := (List.getElem?_eq_some_iff.mp ha).1
      exact hdone i a (by omega) ha
    next line hline =>
      have hmem := List.mem_of_getElem? hline
      split
      next hartificial =>
        split
        next hexchange =>
          refine hskip ?_
          intro a ha _
          cases hline.symm.trans ha
          exact exchangeColumn?_eq_none (h.represents.canonical.width _ hmem) hexchange
        next column hexchange =>
          obtain ⟨hcolumn, hlarge⟩ := exchangeColumn?_eq_some hexchange
          rw [magnitude_eq_abs] at hlarge
          have hwidth := l.artificialStart_le
          obtain ⟨t₁, hpivot⟩ := Tableau.exists_pivot hline (abs_pos.mp hlarge)
          have hsound₁ : Sound l P f t₁ := h.pivot_of_rhs_eq_zero hline
            (h.artificial line hmem hartificial) (by omega) hpivot
          obtain ⟨t', ht', hsound, hlength, hidle⟩ := ih (row + 1) hsound₁ <| by
            intro i a hi ha
            refine Line.Idle.pivot h.represents.canonical hpivot hline hcolumn ?_ ha
            intro a hne ha
            exact hdone i a (by omega) ha
          refine ⟨t', ?_, hsound, hlength.trans (Tableau.length_pivot hpivot), ?_⟩
          · rw [hpivot]
            exact ht'
          · exact fun i a hi => hidle i a (by omega)
      next hbasic =>
        refine hskip ?_
        intro a ha hartificial
        cases hline.symm.trans ha
        exact absurd hartificial hbasic

/-! ## The first phase -/

section
variable (h : t.Represents l.width P (form l.artificialCells)) (hrhs : ∀ a ∈ t.lines, 0 ≤ a.rhs)
include h hrhs

/-- Where the first phase has done its best, the sum of the artificial columns tells whether there
is anything to look for. -/
theorem sound_of_first_optimal (hcost : ∀ j < l.width, 0 ≤ t.cost.coeff j) :
    if 0 < -t.cost.rhs then ¬∃ y, P y ∧ l.Admits y else Sound l P (form l.artificialCells) t := by
  split
  next hpos =>
    rintro ⟨y, hy, hadmits⟩
    have hle := Tableau.value_ge h hcost hy hadmits.1
      fun j hj hj' => absurd hj' (not_lt.mpr hj)
    rw [(form_artificialCells_eq_zero_iff hadmits.1).mpr hadmits.2] at hle
    linarith
  next hpos =>
    have hvertex : ∀ j < l.width, 0 ≤ t.vertex l.width j :=
      fun j _ => Tableau.vertex_nonneg h.canonical hrhs j
    have hvalue := Tableau.value_vertex h
    have hsum := form_artificialCells_nonneg hvertex
    have hzero := (form_artificialCells_eq_zero_iff hvertex).mp (by linarith)
    refine ⟨h, hrhs, ?_⟩
    intro a ha hbasic
    rw [← Tableau.vertex_basic h.canonical ha]
    exact hzero a.basic hbasic (h.canonical.basic_lt a ha)

/-- The objective of the first phase is not negative, so nothing makes it fall for ever. -/
theorem not_first_unbounded {column : Nat} (hcost : t.cost.coeff column < 0)
    (hfree : t.leaving? 0 column = .ok none) : False := by
  obtain ⟨amount, hamount, _, hbelow⟩ := Tableau.exists_ray_le h hcost (-1)
  have hcoeff := Tableau.leaving?_eq_none (le_refl 0) hfree
  have hsum := form_artificialCells_nonneg (l := l) fun j _ =>
    Tableau.ray_nonneg h.canonical hrhs hcoeff hamount j
  linarith

/-- The first phase ends within its budget. It stops for lack of steps, or finds that there is
nothing to look for, or reaches a tableau whose vertex is a solution to look for. -/
theorem firstPhase_spec (budget : Nat) :
    ∃ stop, t.iterate 0 l.width 0 budget = .ok stop ∧ stop.pivots ≤ budget ∧
      stop.tableau.lines.length = t.lines.length ∧
      (stop.status = .iterationLimit ∧ stop.pivots = budget ∨
        stop.status = .optimal ∧
          if 0 < -stop.tableau.cost.rhs then ¬∃ y, P y ∧ l.Admits y
          else Sound l P (form l.artificialCells) stop.tableau) := by
  obtain ⟨stop, k, hstop, hk, hpivots, hsteps, hends⟩ :=
    Tableau.iterate_spec (le_refl 0) l.width budget 0 t
  rw [Nat.zero_add] at hpivots
  have hstopped : stop.tableau.Represents l.width P (form l.artificialCells) :=
    hsteps.invariant (fun _ _ => Tableau.represents_step) h
  have hnonneg : ∀ a ∈ stop.tableau.lines, 0 ≤ a.rhs :=
    hsteps.invariant (Q := fun t => ∀ a ∈ t.lines, 0 ≤ a.rhs)
      (fun _ _ => Tableau.nonneg_step) hrhs
  have hlength : stop.tableau.lines.length = t.lines.length :=
    hsteps.invariant (Q := fun t' => t'.lines.length = t.lines.length)
      (fun _ _ h hstep => (Tableau.length_step hstep).trans h) rfl
  refine ⟨stop, hstop, by omega, hlength, ?_⟩
  generalize stop.status = status at hends
  cases hends with
  | limit hspent => exact Or.inl ⟨rfl, by omega⟩
  | optimal hnone =>
    refine Or.inr ⟨rfl, sound_of_first_optimal hstopped hnonneg ?_⟩
    intro j hj
    have hle := Tableau.entering?_eq_none hnone hj (by rwa [hstopped.prices.width])
    rwa [neg_zero] at hle
  | unbounded hsome hfree =>
    obtain ⟨_, _, hcost⟩ := Tableau.entering?_eq_some hsome
    -- The sum of the artificials is bounded below by zero.
    exact (not_first_unbounded hstopped hnonneg (by rwa [neg_zero] at hcost) hfree).elim

end

/-! ## The second phase -/

/-- A tableau that the second phase works on: its vertex is a solution to look for, and lines of
artificial columns are idle. -/
structure Ready (l : Layout) (P : (Nat → Rat) → Prop) (f : (Nat → Rat) → Rat) (t : Tableau Rat) :
    Prop extends Sound l P f t where
  idle : ∀ a ∈ t.lines, a.Idle l

/-- The line that leaves has an entry in the column that enters, so it is not idle; the idle ones
have none and stay as they are. -/
theorem Ready.step (h : Ready l P f t) (hstep : Tableau.Step 0 l.artificialStart t t') :
    Ready l P f t' := by
  have hrepresents := Tableau.represents_step h.represents hstep
  have hnonneg := Tableau.nonneg_step h.nonneg hstep
  obtain ⟨column, row, hentering, hleaving, hpivot⟩ := hstep
  have hcolumn := (Tableau.entering?_eq_some hentering).1
  obtain ⟨line, hline, hcoeff, _⟩ := Tableau.leaving?_least hleaving
  refine ⟨⟨hrepresents, hnonneg, ?_⟩, ?_⟩
  · intro a' ha' hbasic
    obtain ⟨i, hi⟩ := List.mem_iff_getElem?.mp ha'
    rcases (Tableau.getElem?_pivot hpivot hline).mp hi with ⟨_, rfl⟩ | ⟨_, a, ha, rfl⟩
    · exact absurd hcolumn (not_lt.mpr hbasic)
    · have hmem := List.mem_of_getElem? ha
      rw [basic_eliminate] at hbasic
      rw [rhs_eliminate, h.idle a hmem hbasic column hcolumn, zero_mul, sub_zero]
      exact h.artificial a hmem hbasic
  · intro a' ha'
    obtain ⟨i, hi⟩ := List.mem_iff_getElem?.mp ha'
    refine Line.Idle.pivot h.represents.canonical hpivot hline hcolumn ?_ hi
    intro a _ ha
    exact h.idle a (List.mem_of_getElem? ha)

/-- A ray along a column that falls in no line has no negative column. -/
theorem Ready.admits_ray (h : Ready l P f t) {column : Nat} {amount : Rat}
    (hcolumn : column < l.artificialStart) (hcoeff : ∀ a ∈ t.lines, a.coeff column ≤ 0)
    (hamount : 0 ≤ amount) : l.Admits (t.ray l.width column amount) := by
  refine ⟨fun j _ => Tableau.ray_nonneg h.represents.canonical h.nonneg hcoeff hamount j, ?_⟩
  intro j hj _
  refine Tableau.ray_induction h.represents.canonical
    (Q := fun j v => l.artificialStart ≤ j → v = 0) ?_ ?_ (fun _ _ _ => rfl) hj
  · exact fun hle => absurd hcolumn (not_lt.mpr hle)
  · intro a ha _ hbasic
    rw [h.artificial a ha hbasic, h.idle a ha hbasic column hcolumn, mul_zero, sub_zero]

/-- The second phase ends within its budget: for lack of steps, with rays on which the objective
falls below every bound, or at a vertex that no solution to look for beats. -/
theorem secondPhase_spec (made budget : Nat) (h : Ready l P f t) :
    ∃ stop, t.iterate 0 l.artificialStart made budget = .ok stop ∧
      (stop.status = .iterationLimit ∧ stop.pivots = made + budget ∨
        stop.status = .unbounded ∧ (∀ bound, ∃ y, P y ∧ l.Admits y ∧ f y ≤ bound) ∨
        stop.status = .optimal ∧ Sound l P f stop.tableau ∧
          ∀ y, P y → l.Admits y → f (stop.tableau.vertex l.width) ≤ f y) := by
  obtain ⟨stop, k, hstop, hk, hpivots, hsteps, hends⟩ :=
    Tableau.iterate_spec (le_refl 0) l.artificialStart budget made t
  have hready : Ready l P f stop.tableau :=
    hsteps.invariant (fun _ _ h hstep => h.step hstep) h
  refine ⟨stop, hstop, ?_⟩
  -- The three ways to stop are the three answers.
  generalize stop.status = status at hends
  cases hends with
  | limit hspent => exact Or.inl ⟨rfl, by omega⟩
  | unbounded hsome hfree =>
    refine Or.inr (Or.inl ⟨rfl, ?_⟩)
    obtain ⟨hcolumn, _, hcost⟩ := Tableau.entering?_eq_some hsome
    have hcoeff := Tableau.leaving?_eq_none (le_refl 0) hfree
    intro bound
    -- Along the ray of the entering column the objective falls below any bound.
    obtain ⟨amount, hamount, hsolves, hle⟩ :=
      Tableau.exists_ray_le hready.represents (by rwa [neg_zero] at hcost) bound
    exact ⟨_, hsolves, hready.admits_ray hcolumn hcoeff hamount, hle⟩
  | optimal hnone =>
    refine Or.inr (Or.inr ⟨rfl, hready.toSound, ?_⟩)
    intro y hy hadmits
    have hwidth := l.artificialStart_le
    have hcost : ∀ j < l.artificialStart, 0 ≤ stop.tableau.cost.coeff j := by
      intro j hj
      have hle := Tableau.entering?_eq_none hnone hj
        (by rw [hready.represents.prices.width]; omega)
      rwa [neg_zero] at hle
    -- No cost is negative, so no admitted point is below the vertex.
    rw [Tableau.value_vertex hready.represents]
    exact Tableau.value_ge hready.represents hcost hy hadmits.1 hadmits.2

end GoalBudget.Simplex
