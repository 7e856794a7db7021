import GoalBudget.Proofs.Fault.Success
import GoalBudget.Proofs.Simplex.Canonical

/-!
# Runs of pivots

A step of a run is a pivot at the column that `entering?` and the line that `leaving?` name
(`Step`); a run is a number of steps (`Steps`), and it ends when no column may enter, when no line
bounds the one that does, or when the allowed number of steps is used up (`Ends`). `iterate` makes a
run and never fails, whatever the tableau, as long as the tolerance is not negative
(`iterate_spec`). Everything else about runs is proved by induction on `Steps` (`Steps.invariant`),
and `iterate` is not unfolded again.

What the two choices come to is read off the folds that make them:

* `entering?` finds a column with a cost below minus the tolerance, or there is none
  (`entering?_eq_some`, `entering?_eq_none`);
* `leaving?` finds a line with a coefficient above the tolerance, or there is none
  (`leaving?_spec`). Which of these lines it is depends on the tolerance, since ratios within the
  tolerance count as equal and the comparison is then no order.

With tolerance zero the line that leaves is the one of the least ratio (`leaving?_least`), so right
sides that were not negative stay so (`nonneg_step`).
-/

namespace GoalBudget.Simplex.Tableau

variable {tolerance : Rat} {allowed column : Nat}

/-! ## The column that enters -/

/-- The least of some numbers and where it stands, unless the best one so far is as small. -/
theorem foldl_least (cells : List Rat) (first : Nat) (best : Option Nat × Rat) :
    ∃ found, (cells.zipIdx first).foldl
        (fun (best : Option Nat × Rat) cell =>
          if cell.1 < best.2 then (some cell.2, cell.1) else best) best = found ∧
      found.2 ≤ best.2 ∧ (∀ c ∈ cells, found.2 ≤ c) ∧
      (found = best ∨ ∃ i, cells[i]? = some found.2 ∧ found.1 = some (first + i) ∧
        found.2 < best.2) := by
  induction cells generalizing first best with
  | nil => exact ⟨best, rfl, le_refl _, fun c hc => absurd hc (List.not_mem_nil), Or.inl rfl⟩
  | cons c rest ih =>
    rw [List.zipIdx_cons, List.foldl_cons]
    by_cases hc : c < best.2
    · rw [if_pos hc]
      obtain ⟨found, hfound, hle, hrest, hcases⟩ := ih (first + 1) (some first, c)
      refine ⟨found, hfound, le_trans hle (le_of_lt hc), ?_, Or.inr ?_⟩
      · intro c' hc'
        rcases List.mem_cons.mp hc' with rfl | hc'
        · exact hle
        · exact hrest c' hc'
      -- The least of the rest stands one place further on in the whole list.
      · rcases hcases with rfl | ⟨i, hi, hat, hlt⟩
        · exact ⟨0, rfl, rfl, hc⟩
        · exact ⟨i + 1, hi, by rw [hat, Nat.add_right_comm, Nat.add_assoc], lt_trans hlt hc⟩
    · rw [if_neg hc]
      obtain ⟨found, hfound, hle, hrest, hcases⟩ := ih (first + 1) best
      refine ⟨found, hfound, hle, ?_, ?_⟩
      · intro c' hc'
        rcases List.mem_cons.mp hc' with rfl | hc'
        · exact le_trans hle (not_lt.mp hc)
        · exact hrest c' hc'
      · rcases hcases with rfl | ⟨i, hi, hat, hlt⟩
        · exact Or.inl rfl
        · exact Or.inr ⟨i + 1, hi, by rw [hat, Nat.add_right_comm, Nat.add_assoc], hlt⟩

/-- If no column enters, no cost is below minus the tolerance. -/
theorem entering?_eq_none {t : Tableau Rat} (h : t.entering? tolerance allowed = none) {j : Nat}
    (hj : j < allowed) (hwidth : j < t.cost.cells.length) : -tolerance ≤ t.cost.coeff j := by
  obtain ⟨found, hfound, _, hleast, hcases⟩ :=
    foldl_least (t.cost.cells.take allowed) 0 (none, -tolerance)
  have hnone : found.1 = none := by rw [← hfound]; exact h
  rcases hcases with rfl | ⟨i, _, hat, _⟩
  · refine hleast _ (List.mem_take_iff_getElem.mpr ⟨j, by omega, ?_⟩)
    exact (List.getD_eq_getElem _ _ hwidth).symm
  · rw [hat] at hnone
    cases hnone

/-- The column that enters is one of the allowed, and its cost is below minus the tolerance. -/
theorem entering?_eq_some {t : Tableau Rat} (h : t.entering? tolerance allowed = some column) :
    column < allowed ∧ column < t.cost.cells.length ∧ t.cost.coeff column < -tolerance := by
  obtain ⟨found, hfound, _, _, hcases⟩ :=
    foldl_least (t.cost.cells.take allowed) 0 (none, -tolerance)
  have hsome : found.1 = some column := by rw [← hfound]; exact h
  rcases hcases with rfl | ⟨i, hi, hat, hlt⟩
  · cases hsome
  · rw [hat, Nat.zero_add] at hsome
    cases hsome
    rw [List.getElem?_take] at hi
    split at hi
    next hallowed =>
      have hcoeff : t.cost.coeff column = found.2 := by
        rw [Cost.coeff, List.getD_eq_getElem?_getD, hi, Option.getD_some]
      exact ⟨hallowed, (List.getElem?_eq_some_iff.mp hi).1, by rw [hcoeff]; exact hlt⟩
    next => cases hi

/-! ## The line that leaves -/

/-- What a line offers for a column: the value at which its basic column reaches zero. -/
def offer (column : Nat) (l : Line Rat) (row : Nat) : Candidate Rat :=
  ⟨row, l.basic, l.rhs / l.coeff column⟩

/-- A coefficient above the tolerance is not zero, so no line is refused. -/
theorem consider_eq (h : 0 ≤ tolerance) (best : Option (Candidate Rat)) (l : Line Rat)
    (row : Nat) : consider tolerance column best (l, row) =
      .ok (if tolerance < l.coeff column ∧ (offer column l row).beats tolerance best = true then
        some (offer column l row) else best) := by
  by_cases hl : tolerance < l.coeff column
  · have hne : (l.coeff column == 0) = false := by
      rw [beq_eq_false_iff_ne]
      exact ne_of_gt (lt_of_le_of_lt h hl)
    simp only [consider, hne, Bool.false_eq_true, if_false, hl, true_and]
    rfl
  · simp only [consider, hl, false_and, if_false]

/-- What the lines seen so far leave as the best one: a line among them with a coefficient above
the tolerance, or the best one from before; nothing only if there is neither. -/
theorem foldlM_consider (column : Nat) (h : 0 ≤ tolerance) (lines : List (Line Rat)) (first : Nat)
    (best : Option (Candidate Rat)) :
    ∃ found, (lines.zipIdx first).foldlM (consider tolerance column) best = .ok found ∧
      (found = none → best = none ∧ ∀ l ∈ lines, l.coeff column ≤ tolerance) ∧
      ∀ c, found = some c → best = some c ∨
        ∃ i l, lines[i]? = some l ∧ tolerance < l.coeff column ∧
          c = offer column l (first + i) := by
  induction lines generalizing first best with
  | nil =>
    exact ⟨best, rfl, fun hb => ⟨hb, fun l hl => absurd hl List.not_mem_nil⟩, fun c hc => Or.inl hc⟩
  | cons l rest ih =>
    rw [List.zipIdx_cons, List.foldlM_cons, consider_eq h]
    show ∃ found, (rest.zipIdx (first + 1)).foldlM (consider tolerance column) (ite _ _ _) = _ ∧ _
    split
    next hnew =>
      obtain ⟨found, hfound, hnone, hsome⟩ := ih (first + 1) (some (offer column l first))
      refine ⟨found, hfound, fun hf => absurd (hnone hf).1 (by simp), ?_⟩
      intro c hc
      rcases hsome c hc with hbest | ⟨i, l', hl', hcoeff, hrow⟩
      · exact Or.inr ⟨0, l, rfl, hnew.1, (Option.some.inj hbest).symm⟩
      · exact Or.inr ⟨i + 1, l', hl', hcoeff, by rw [hrow, Nat.add_right_comm, Nat.add_assoc]⟩
    next hold =>
      obtain ⟨found, hfound, hnone, hsome⟩ := ih (first + 1) best
      refine ⟨found, hfound, ?_, ?_⟩
      · intro hf
        obtain ⟨hbest, hrest⟩ := hnone hf
        refine ⟨hbest, ?_⟩
        intro l' hl'
        rcases List.mem_cons.mp hl' with rfl | hl'
        · -- without a best line so far the new one would have won
          rw [hbest] at hold
          exact not_lt.mp fun hcoeff => hold ⟨hcoeff, rfl⟩
        · exact hrest l' hl'
      · intro c hc
        rcases hsome c hc with hbest | ⟨i, l', hl', hcoeff, hrow⟩
        · exact Or.inl hbest
        · exact Or.inr ⟨i + 1, l', hl', hcoeff, by rw [hrow, Nat.add_right_comm, Nat.add_assoc]⟩

/-- The choice of a line never fails, and finds one if there is one. -/
theorem leaving?_spec (h : 0 ≤ tolerance) (t : Tableau Rat) (column : Nat) :
    ∃ found, t.leaving? tolerance column = .ok found ∧
      (found = none → ∀ l ∈ t.lines, l.coeff column ≤ tolerance) ∧
      ∀ row, found = some row → ∃ line, t.lines[row]? = some line ∧
        tolerance < line.coeff column := by
  obtain ⟨found, hfound, hnone, hsome⟩ := foldlM_consider column h t.lines 0 none
  refine ⟨found.map (·.row), ?_, ?_, ?_⟩
  · rw [leaving?, bind_eq_ok]
    exact ⟨found, hfound, rfl⟩
  · intro hf
    exact (hnone (Option.map_eq_none_iff.mp hf)).2
  · intro row hrow
    obtain ⟨c, hc, rfl⟩ := Option.map_eq_some_iff.mp hrow
    rcases hsome c hc with hbest | ⟨i, l, hl, hcoeff, rfl⟩
    · cases hbest
    · refine ⟨l, ?_, hcoeff⟩
      show t.lines[0 + i]? = some l
      rw [Nat.zero_add, hl]

/-- If no line leaves, none has a coefficient above the tolerance. -/
theorem leaving?_eq_none (htolerance : 0 ≤ tolerance) {t : Tableau Rat} {column : Nat}
    (h : t.leaving? tolerance column = .ok none) : ∀ l ∈ t.lines, l.coeff column ≤ tolerance := by
  obtain ⟨found, hfound, hnone, _⟩ := leaving?_spec htolerance t column
  cases h.symm.trans hfound
  exact hnone rfl

/-! With tolerance zero the candidates are compared by their ratios. -/

/-- Without tolerance the better candidate has the lesser ratio. -/
theorem Candidate.beats_zero {new best : Candidate Rat} (h : new.beats 0 (some best) = true) :
    new.ratio ≤ best.ratio := by
  simp only [beats, sub_zero, magnitude_eq_abs, Bool.or_eq_true, Bool.and_eq_true,
    decide_eq_true_eq, abs_nonpos_iff] at h
  rcases h with hlt | ⟨heq, _⟩
  · exact le_of_lt hlt
  · exact le_of_eq (sub_eq_zero.mp heq)

theorem Candidate.not_beats_zero {new best : Candidate Rat}
    (h : ¬new.beats 0 (some best) = true) : best.ratio ≤ new.ratio := by
  simp only [beats, sub_zero, Bool.or_eq_true, decide_eq_true_eq, not_or, not_lt] at h
  exact h.1

/-- A ratio that the best line so far or a later one stays below is not reached at the end. -/
theorem foldlM_consider_le (lines : List (Line Rat)) (first : Nat)
    (best : Option (Candidate Rat)) (v : Rat)
    (h : (∃ b, best = some b ∧ b.ratio ≤ v) ∨
      ∃ l ∈ lines, 0 < l.coeff column ∧ l.rhs / l.coeff column ≤ v) :
    ∃ c, (lines.zipIdx first).foldlM (consider 0 column) best = .ok (some c) ∧ c.ratio ≤ v := by
  induction lines generalizing first best with
  | nil =>
    rcases h with ⟨b, hb, hle⟩ | ⟨l, hl, _⟩
    · exact ⟨b, by rw [hb]; rfl, hle⟩
    · cases hl
  | cons l rest ih =>
    rw [List.zipIdx_cons, List.foldlM_cons, consider_eq (le_refl 0)]
    refine ih (first + 1) _ ?_
    rcases h with ⟨b, rfl, hle⟩ | ⟨l', hl', hcoeff, hle⟩
    · left
      -- A candidate is replaced only by one that beats it, so its ratio never grows.
      split
      next hnew => exact ⟨_, rfl, le_trans (Candidate.beats_zero hnew.2) hle⟩
      next => exact ⟨b, rfl, hle⟩
    · rcases List.mem_cons.mp hl' with rfl | hl'
      · left
        split
        next => exact ⟨_, rfl, hle⟩
        next hold =>
          -- It has a positive coefficient: only a better candidate keeps it out.
          cases best with
          | none => exact absurd ⟨hcoeff, rfl⟩ hold
          | some b =>
            have hlose : ¬(offer column l' first).beats 0 (some b) = true :=
              fun hbeats => hold ⟨hcoeff, hbeats⟩
            exact ⟨b, rfl, le_trans (Candidate.not_beats_zero hlose) hle⟩
      · exact Or.inr ⟨l', hl', hcoeff, hle⟩

/-- Without tolerance the line that leaves has the least ratio. -/
theorem leaving?_least {t : Tableau Rat} {row : Nat} (h : t.leaving? 0 column = .ok (some row)) :
    ∃ line, t.lines[row]? = some line ∧ 0 < line.coeff column ∧
      ∀ l ∈ t.lines, 0 < l.coeff column →
        line.rhs / line.coeff column ≤ l.rhs / l.coeff column := by
  obtain ⟨found, hfound, _, hsome⟩ := foldlM_consider column (le_refl 0) t.lines 0 none
  rw [leaving?, bind_eq_ok] at h
  obtain ⟨found', hfound', hrow⟩ := h
  cases hfound.symm.trans hfound'
  obtain ⟨c, rfl, rfl⟩ := Option.map_eq_some_iff.mp (pure_eq_ok.mp hrow)
  rcases hsome c rfl with hbest | ⟨i, line, hline, hcoeff, rfl⟩
  · cases hbest
  · refine ⟨line, by simpa [offer] using hline, hcoeff, ?_⟩
    intro l hl hl0
    obtain ⟨c', hc', hle⟩ := foldlM_consider_le t.lines 0 none _ (Or.inr ⟨l, hl, hl0, le_refl _⟩)
    cases hfound.symm.trans hc'
    exact hle

/-! ## Steps -/

/-- One step of a run: the pivot that the two choices name. -/
def Step (tolerance : Rat) (allowed : Nat) (t t' : Tableau Rat) : Prop :=
  ∃ column row, t.entering? tolerance allowed = some column ∧
    t.leaving? tolerance column = .ok (some row) ∧ t.pivot row column = .ok t'

/-- A number of steps. -/
inductive Steps (tolerance : Rat) (allowed : Nat) : Nat → Tableau Rat → Tableau Rat → Prop where
  | none (t) : Steps tolerance allowed 0 t t
  | next {k t t' t''} (first : Step tolerance allowed t t')
      (rest : Steps tolerance allowed k t' t'') : Steps tolerance allowed (k + 1) t t''

/-- Why a run ends at a tableau: no column may enter, no line bounds the one that does, or
nothing is left of the budget. -/
inductive Ends (tolerance : Rat) (allowed : Nat) (spent : Prop) (t : Tableau Rat) :
    Status → Prop where
  | optimal (h : t.entering? tolerance allowed = none) : Ends tolerance allowed spent t .optimal
  | unbounded {entered : Nat} (h : t.entering? tolerance allowed = some entered)
      (hfree : t.leaving? tolerance entered = .ok none) : Ends tolerance allowed spent t .unbounded
  | limit (h : spent) : Ends tolerance allowed spent t .iterationLimit

/-- What every step keeps, a run keeps. -/
theorem Steps.invariant {Q : Tableau Rat → Prop}
    (hstep : ∀ t t', Q t → Step tolerance allowed t t' → Q t') {k : Nat} {t t' : Tableau Rat}
    (h : Steps tolerance allowed k t t') (ht : Q t) : Q t' := by
  induction h with
  | none t => exact ht
  | next first _ ih => exact ih (hstep _ _ ht first)

/-- With a tolerance that is not negative a run comes to an end, within its budget and without
a fault. -/
theorem iterate_spec (h : 0 ≤ tolerance) (allowed budget made : Nat) (t : Tableau Rat) :
    ∃ stop k, iterate tolerance allowed made budget t = .ok stop ∧ k ≤ budget ∧
      stop.pivots = made + k ∧ Steps tolerance allowed k t stop.tableau ∧
      Ends tolerance allowed (k = budget) stop.tableau stop.status := by
  induction budget generalizing made t with
  | zero =>
    simp only [iterate]
    split
    next hnone => exact ⟨_, 0, rfl, le_refl 0, rfl, .none t, .optimal hnone⟩
    next => exact ⟨_, 0, rfl, le_refl 0, rfl, .none t, .limit rfl⟩
  | succ budget ih =>
    simp only [iterate]
    split
    next hnone => exact ⟨_, 0, rfl, Nat.zero_le _, rfl, .none t, .optimal hnone⟩
    next column hcolumn =>
      obtain ⟨found, hfound, _, hsome⟩ := leaving?_spec h t column
      cases found with
      | none =>
        refine ⟨⟨.unbounded, t, made⟩, 0, ?_, Nat.zero_le _, rfl, .none t,
          .unbounded hcolumn hfound⟩
        rw [hfound]
        rfl
      | some row =>
        -- A row that leaves has a pivot above the tolerance, so the pivot is defined.
        obtain ⟨line, hline, hcoeff⟩ := hsome row rfl
        obtain ⟨t', ht'⟩ := exists_pivot hline (ne_of_gt (lt_of_le_of_lt h hcoeff))
        obtain ⟨stop, k, hstop, hk, hpivots, hsteps, hends⟩ := ih (made + 1) t'
        have hends' : Ends tolerance allowed (k + 1 = budget + 1) stop.tableau stop.status := by
          simpa using hends
        refine ⟨stop, k + 1, ?_, by omega, by omega, .next ?_ hsteps, hends'⟩
        · rw [hfound]
          show (t.pivot row column >>= _) = _
          rw [ht']
          exact hstop
        · exact ⟨column, row, hcolumn, hfound, ht'⟩

/-- A step makes a pivot at a column that may enter, so it keeps what a tableau represents. -/
theorem represents_step {n : Nat} {P : (Nat → Rat) → Prop} {f : (Nat → Rat) → Rat}
    {t t' : Tableau Rat} (ht : t.Represents n P f) (h : Step tolerance allowed t t') :
    t'.Represents n P f := by
  obtain ⟨column, row, hcolumn, _, hpivot⟩ := h
  refine represents_pivot ht ?_ hpivot
  rw [← ht.prices.width]
  exact (entering?_eq_some hcolumn).2.1

theorem length_step {t t' : Tableau Rat} (h : Step tolerance allowed t t') :
    t'.lines.length = t.lines.length := by
  obtain ⟨_, _, _, _, hpivot⟩ := h
  exact length_pivot hpivot

/-- The least ratio is what the other lines can spare. -/
theorem nonneg_step {t t' : Tableau Rat} (hrhs : ∀ l ∈ t.lines, 0 ≤ l.rhs)
    (h : Step 0 allowed t t') : ∀ l ∈ t'.lines, 0 ≤ l.rhs := by
  obtain ⟨column, row, _, hrow, hpivot⟩ := h
  obtain ⟨line, hline, hcoeff, hleast⟩ := leaving?_least hrow
  have hratio : 0 ≤ line.rhs / line.coeff column :=
    div_nonneg (hrhs line (List.mem_of_getElem? hline)) (le_of_lt hcoeff)
  intro l' hl'
  obtain ⟨i, hi⟩ := List.mem_iff_getElem?.mp hl'
  rcases (getElem?_pivot hpivot hline).mp hi with ⟨_, rfl⟩ | ⟨_, l, hl, rfl⟩
  · exact hratio
  · rw [rhs_eliminate]
    show 0 ≤ l.rhs - l.coeff column * (line.rhs / line.coeff column)
    by_cases hl0 : 0 < l.coeff column
    · have hmul := mul_le_mul_of_nonneg_left (hleast l (List.mem_of_getElem? hl) hl0) hl0.le
      rw [mul_div_cancel₀ _ (ne_of_gt hl0)] at hmul
      linarith
    · have hfall := mul_nonpos_of_nonpos_of_nonneg (not_lt.mp hl0) hratio
      linarith [hrhs l (List.mem_of_getElem? hl)]

end GoalBudget.Simplex.Tableau
