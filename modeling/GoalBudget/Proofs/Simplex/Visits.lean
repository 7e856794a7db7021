import GoalBudget.Proofs.Simplex.Answer
import Mathlib.Logic.Relation

/-!
# The tableaus of a run

A run of the simplex method visits tableaus in three stages: the steps of the first phase
(`VisitsFirst`), the exchanges of artificial columns, one line after the other (`VisitsBetween`),
and the steps of the second phase (`VisitsSecond`). What the answer is depends on how the runs of
the two phases stop (`solveByPivots_of_first`, `secondPhase_of_stop`), and an optimal solution is
read off a tableau of the second phase (`solution_of_solveByPivots`), unless there is no row and
every column is set on its own.

Whatever the tolerance, all lines come about from those of the first tableau by pivots at columns
that exist (`Visits.reaches`), so what such pivots keep holds of every tableau. Canonical form is
the first example (`Reaches.canonical`).

The stages are stated without a limit on pivots: a tableau counts as visited if a long enough run
comes to it. What is shown of all of them is shown of those that a limited run gets to.
-/

namespace GoalBudget.Simplex

variable {s : Simplex Rat} {t t₁ : Tableau Rat} {k : Nat}

/-- The tableau that the first phase starts from. -/
def firstStart (s : Simplex Rat) : Tableau Rat :=
  firstTableau (layoutOf s.program) (standardRows s.program)

/-- The tableaus of the first phase. -/
def VisitsFirst (s : Simplex Rat) (t : Tableau Rat) : Prop :=
  ∃ k, Tableau.Steps s.tolerance (layoutOf s.program).width k s.firstStart t

/-- The tableaus between the phases: after some lines were looked at for artificial columns. -/
def VisitsBetween (s : Simplex Rat) (t : Tableau Rat) : Prop :=
  ∃ t₁ count, s.VisitsFirst t₁ ∧ driveOut (layoutOf s.program) s.tolerance 0 count t₁ = .ok t

/-- The tableau with the true objective in place of its own. -/
def withTrueCost (s : Simplex Rat) (t : Tableau Rat) : Tableau Rat :=
  { t with cost := trueCost s.program (layoutOf s.program) t.lines }

/-- Whether the first phase has done its best and its artificial columns sum up to what counts as
zero. -/
def IsReady (s : Simplex Rat) (t : Tableau Rat) : Prop :=
  t.entering? s.tolerance (layoutOf s.program).width = none ∧
    ¬feasibilityTolerance s.tolerance (standardRows s.program) < -t.cost.rhs

/-- Whether the second phase starts from a tableau. -/
def TurnsTo (s : Simplex Rat) (t : Tableau Rat) : Prop :=
  ∃ t₁ t₂, s.VisitsFirst t₁ ∧ s.IsReady t₁ ∧
    driveOut (layoutOf s.program) s.tolerance 0 (standardRows s.program).length t₁ = .ok t₂ ∧
    t = s.withTrueCost t₂

/-- The tableaus of the second phase. -/
def VisitsSecond (s : Simplex Rat) (t : Tableau Rat) : Prop :=
  ∃ start k, s.TurnsTo start ∧
    Tableau.Steps s.tolerance (layoutOf s.program).artificialStart k start t

/-- The tableaus of all stages. -/
def Visits (s : Simplex Rat) (t : Tableau Rat) : Prop :=
  s.VisitsFirst t ∨ s.VisitsBetween t ∨ s.VisitsSecond t

/-! ## Lines reached by pivots -/

/-- One pivot at a column below `n`, as far as the lines are concerned. -/
def PivotsTo (n : Nat) (lines lines' : List (Line Rat)) : Prop :=
  ∃ t t' : Tableau Rat, ∃ row column, t.lines = lines ∧ t'.lines = lines' ∧ column < n ∧
    t.pivot row column = .ok t'

/-- Any number of such pivots. -/
abbrev Reaches (n : Nat) : List (Line Rat) → List (Line Rat) → Prop :=
  Relation.ReflTransGen (PivotsTo n)

/-- Steps are pivots. -/
theorem Tableau.Steps.reaches {n allowed k : Nat} {tolerance : Rat} {t u : Tableau Rat}
    (h : Tableau.Steps tolerance allowed k t u) (hallowed : allowed ≤ n) :
    Reaches n t.lines u.lines := by
  induction h with
  | none t => exact .refl
  | next first _ ih =>
    obtain ⟨column, row, hcolumn, _, hpivot⟩ := first
    have hlt := (Tableau.entering?_eq_some hcolumn).1
    exact .head ⟨_, _, row, column, rfl, rfl, by omega, hpivot⟩ ih

/-- What every pivot at a column that is not artificial keeps, driving out keeps. -/
theorem driveOut_invariant {l : Layout} {tolerance : Rat} {Q : Tableau Rat → Prop}
    (hkeep : ∀ t t' row column, Q t → column < l.artificialStart → t.pivot row column = .ok t' →
      Q t') {t t' : Tableau Rat} {row count : Nat}
    (h : driveOut l tolerance row count t = .ok t') (ht : Q t) : Q t' := by
  induction count generalizing row t with
  | zero =>
    cases h
    exact ht
  | succ count ih =>
    rw [driveOut] at h
    split at h
    next =>
      cases h
      exact ht
    next line hline =>
      split at h
      next =>
        split at h
        next => exact ih h ht
        next column hexchange =>
          obtain ⟨t₁, hpivot, h⟩ := bind_eq_ok.mp h
          exact ih h (hkeep t t₁ row column ht (exchangeColumn?_eq_some hexchange).1 hpivot)
      next => exact ih h ht

/-- Exchanges are pivots. -/
theorem reaches_of_driveOut {l : Layout} {tolerance : Rat} {t t' : Tableau Rat} {row count : Nat}
    (h : driveOut l tolerance row count t = .ok t') : Reaches l.width t.lines t'.lines := by
  refine driveOut_invariant (Q := fun u => Reaches l.width t.lines u.lines) ?_ h .refl
  intro u u' row column hreaches hcolumn hpivot
  have hwidth := l.artificialStart_le
  exact hreaches.tail ⟨u, u', row, column, rfl, rfl, by omega, hpivot⟩

/-- The first phase makes pivots from the first tableau on. -/
theorem VisitsFirst.reaches (h : s.VisitsFirst t) :
    Reaches (layoutOf s.program).width s.firstStart.lines t.lines := by
  obtain ⟨_, hsteps⟩ := h
  exact hsteps.reaches (le_refl _)

/-- The exchanges go on from there. -/
theorem VisitsBetween.reaches (h : s.VisitsBetween t) :
    Reaches (layoutOf s.program).width s.firstStart.lines t.lines := by
  obtain ⟨t₁, _, hfirst, hdrive⟩ := h
  exact hfirst.reaches.trans (reaches_of_driveOut hdrive)

/-- The second phase has its own cost line, and goes on from the same lines. -/
theorem VisitsSecond.reaches (h : s.VisitsSecond t) :
    Reaches (layoutOf s.program).width s.firstStart.lines t.lines := by
  obtain ⟨_, _, ⟨t₁, t₂, hfirst, _, hdrive, rfl⟩, hsteps⟩ := h
  have hsecond := hsteps.reaches (layoutOf s.program).artificialStart_le
  exact (hfirst.reaches.trans (reaches_of_driveOut hdrive)).trans hsecond

/-- The lines of every tableau are reached from the first ones by pivots. -/
theorem Visits.reaches (h : s.Visits t) :
    Reaches (layoutOf s.program).width s.firstStart.lines t.lines := by
  rcases h with h | h | h
  · exact h.reaches
  · exact h.reaches
  · exact h.reaches

/-- Pivots keep the canonical form and the solutions. -/
theorem Reaches.canonical {n : Nat} {lines lines' : List (Line Rat)} (h : Reaches n lines lines')
    (hc : Canonical n lines) :
    Canonical n lines' ∧ ∀ y, Solves lines' y ↔ Solves lines y := by
  induction h with
  | refl => exact ⟨hc, fun _ => Iff.rfl⟩
  | tail _ hpivots ih =>
    obtain ⟨t, t', row, column, rfl, rfl, hcolumn, hpivot⟩ := hpivots
    obtain ⟨hc₁, hsolves⟩ := ih
    exact ⟨Tableau.canonical_pivot hc₁ hcolumn hpivot,
      fun y => (Tableau.solves_pivot hc₁ hpivot y).trans (hsolves y)⟩

/-! ## What the phases answer -/

/-- The second phase answers with how it stopped, or with the point it stopped at. -/
theorem secondPhase_of_stop {made : Nat} {stop : Tableau.Stop Rat}
    (h : (s.withTrueCost t).iterate s.tolerance (layoutOf s.program).artificialStart made
      (s.maxPivots - made).toNat = .ok stop) :
    s.secondPhase (layoutOf s.program) made t =
      if stop.status ≠ .optimal then .ok (stopped stop.status stop.pivots)
      else .ok (solved s.program
        (withinBounds s.program.columns (stop.tableau.basicPoint s.size)) stop.pivots) := by
  show (Tableau.iterate _ _ _ _ (s.withTrueCost t) >>= _) = _
  rw [h]
  rfl

theorem solveByPivots_of_first {stop : Tableau.Stop Rat}
    (h : s.firstStart.iterate s.tolerance (layoutOf s.program).width 0 s.maxPivots.toNat =
      .ok stop) :
    s.solveByPivots =
      if stop.status ≠ .optimal then .ok (stopped stop.status stop.pivots)
      else if feasibilityTolerance s.tolerance (standardRows s.program) <
          -stop.tableau.cost.rhs then
        .ok (stopped .infeasible stop.pivots)
      else
        driveOut (layoutOf s.program) s.tolerance 0 (standardRows s.program).length stop.tableau >>=
          s.secondPhase (layoutOf s.program) stop.pivots := by
  show (s.firstStart.iterate s.tolerance (layoutOf s.program).width 0 s.maxPivots.toNat >>= _) = _
  rw [h]
  rfl

/-- The solution of an optimal answer is read off a tableau that the second phase visits. -/
theorem solution_of_solveByPivots (htolerance : 0 ≤ s.tolerance) {answer : Answer Rat}
    (h : s.solveByPivots = .ok answer) (hstatus : answer.status = .optimal) :
    ∃ t, s.VisitsSecond t ∧
      answer.solution = withinBounds s.program.columns (t.basicPoint s.size) := by
  obtain ⟨stop, k, hstop, _, _, hsteps, hends⟩ := Tableau.iterate_spec htolerance
    (layoutOf s.program).width s.maxPivots.toNat 0 s.firstStart
  rw [solveByPivots_of_first hstop] at h
  split at h
  next hstopped =>
    cases h
    exact absurd hstatus hstopped
  next hfirst =>
    split at h
    next =>
      cases h
      cases hstatus
    next hfeasible =>
      obtain ⟨t, hdrive, h⟩ := bind_eq_ok.mp h
      obtain ⟨stop₂, k₂, hstop₂, _, _, hsteps₂, _⟩ := Tableau.iterate_spec htolerance
        (layoutOf s.program).artificialStart (s.maxPivots - stop.pivots).toNat stop.pivots
        (s.withTrueCost t)
      rw [secondPhase_of_stop hstop₂] at h
      split at h
      next hstopped =>
        cases h
        exact absurd hstatus hstopped
      next =>
        cases h
        -- The first phase stopped as optimal, which only happens where no column enters.
        have hbest : stop.tableau.entering? s.tolerance (layoutOf s.program).width = none := by
          rw [not_not.mp hfirst] at hends
          cases hends with
          | optimal hnone => exact hnone
        exact ⟨stop₂.tableau, ⟨s.withTrueCost t, k₂,
          ⟨stop.tableau, t, ⟨k, hsteps⟩, ⟨hbest, hfeasible⟩, hdrive, rfl⟩, hsteps₂⟩, rfl⟩

end GoalBudget.Simplex
