import GoalBudget.Proofs.Simplex.Standard
import GoalBudget.Simplex.Solver

/-!
# Programs without rows

`Answer.TrueOf` says what an answer claims about a program, status by status. It is the notion that
the whole development of the simplex method ends in, and stands here because programs without rows
are the first it is shown for.

Without rows every column is set on its own: to a bound that no allowed value beats, unless the
column can run away. The method gives up at the first column that can (`bestInBounds_eq_none`), and
then the points with more and more in this column are as good as one likes (`unbounded_of_runaway`).
Otherwise the point is optimal because it is so in every column (`isOptimal_of_columns`). Together:
`solveByBounds_trueOf`.

A column with gain zero is set to its lower bound, which is allowed as long as the bounds have not
crossed; that they have not was checked before.
-/

namespace GoalBudget

/-- What an answer says of a program, when at most `maxPivots` pivots were allowed. -/
def Answer.TrueOf (p : Program Rat) (maxPivots : Int) (a : Answer Rat) : Prop :=
  match a.status with
  | .optimal => p.IsOptimal a.solution ∧ a.objective = some (p.value a.solution)
  | .infeasible => ¬∃ point, p.Feasible point
  | .unbounded => ∀ bound, ∃ point, p.Feasible point ∧ p.AsGood (p.value point) bound
  | .iterationLimit => a.iterations = maxPivots
  | _ => False

/-- The values of a computation on every item. -/
theorem mapM_eq_some {σ τ : Type} {f : σ → Option τ} {items : List σ} {results : List τ}
    (h : items.mapM f = some results) :
    results.length = items.length ∧
      ∀ (i : Nat) (item : σ), items[i]? = some item → ∃ result, results[i]? = some result ∧
        f item = some result := by
  induction items generalizing results with
  | nil =>
    rw [List.mapM_nil] at h
    cases h
    exact ⟨rfl, fun i item hi => by cases hi⟩
  | cons item rest ih =>
    rw [List.mapM_cons] at h
    obtain ⟨first, hfirst, h⟩ := Option.bind_eq_some_iff.mp h
    obtain ⟨others, hothers, h⟩ := Option.bind_eq_some_iff.mp h
    cases h
    obtain ⟨hlength, hat⟩ := ih hothers
    refine ⟨by rw [List.length_cons, List.length_cons, hlength], ?_⟩
    intro i item' hi
    cases i with
    | zero =>
      cases hi
      exact ⟨first, rfl, hfirst⟩
    | succ i => exact hat i item' hi

/-- If no list is made, one of the items has no value. -/
theorem exists_of_mapM_eq_none {σ τ : Type} {f : σ → Option τ} {items : List σ}
    (h : items.mapM f = none) : ∃ item ∈ items, f item = none := by
  induction items with
  | nil => cases h
  | cons item rest ih =>
    cases hitem : f item with
    | none => exact ⟨item, List.mem_cons_self .., hitem⟩
    | some first =>
      cases hrest : rest.mapM f with
      | none =>
        obtain ⟨item', hmem, hnone⟩ := ih hrest
        exact ⟨item', List.mem_cons_of_mem _ hmem, hnone⟩
      | some others =>
        rw [List.mapM_cons, hitem, hrest] at h
        cases h

namespace Simplex

variable {p : Program Rat} {coeff : Rat} {c : Column Rat}

/-- An answer with an optimal solution is true. -/
theorem trueOf_solved {solution : List Rat} (h : p.IsOptimal solution) {pivots : Nat}
    {maxPivots : Int} : (solved p solution pivots).TrueOf p maxPivots := ⟨h, rfl⟩

/-- The gain of a column is its coefficient, turned when the objective is to be made small. -/
theorem gain_eq (p : Program Rat) (coeff : Rat) :
    (if p.maximize then coeff else -coeff) = -(p.sign * coeff) := by
  rw [Program.sign]
  cases p.maximize <;> simp

/-- A column without a best value gains and has no end. -/
theorem bestInBounds_eq_none (h : bestInBounds p.maximize coeff c = none) :
    p.sign * coeff < 0 ∧ c.upper = .endless := by
  simp only [bestInBounds, gain_eq] at h
  by_cases hgain : 0 < -(p.sign * coeff)
  · rw [if_pos hgain] at h
    refine ⟨by linarith, ?_⟩
    cases hupper : c.upper with
    | endless => rfl
    | upTo bound =>
      rw [hupper] at h
      cases h
  · rw [if_neg hgain] at h
    cases h

/-- The bound that a column is set to is allowed, and no allowed value does better. -/
theorem bestInBounds_eq_some {x : Rat} (hc : c.integral = false) (hlower : c.upper.Allows c.lower)
    (h : bestInBounds p.maximize coeff c = some x) :
    c.Allows x ∧ ∀ other, c.Allows other → 0 ≤ p.sign * coeff * (other - x) := by
  simp only [bestInBounds, gain_eq] at h
  by_cases hgain : 0 < -(p.sign * coeff)
  · rw [if_pos hgain] at h
    cases hupper : c.upper with
    | endless =>
      rw [hupper] at h
      cases h
    | upTo bound =>
      rw [hupper] at h hlower
      cases h
      refine ⟨⟨hlower, by rw [hupper]; exact le_refl _, by simp [hc]⟩, ?_⟩
      intro other hother
      -- the column gains upwards, so it is set to its upper bound
      have hle : other ≤ x := by
        have hallows := hother.2.1
        rwa [hupper] at hallows
      exact mul_nonneg_of_nonpos_of_nonpos (by linarith) (by linarith)
  · rw [if_neg hgain] at h
    cases h
    -- nothing is gained upwards, so it stays at its lower bound
    refine ⟨⟨le_refl _, hlower, by simp [hc]⟩, ?_⟩
    intro other hother
    exact mul_nonneg (by linarith) (sub_nonneg.mpr hother.1)

/-- A column on its own is set to one of its bounds. -/
theorem bestInBounds_bound {maximize : Bool} {x : Rat}
    (h : bestInBounds maximize coeff c = some x) : x = c.lower ∨ c.upper = .upTo x := by
  unfold bestInBounds at h
  dsimp only at h
  generalize (if maximize = true then coeff else -coeff) = gain at h
  split at h
  next =>
    split at h
    next bound hupper =>
      rw [isInfinite_rat] at h
      cases h
      exact .inr hupper
    next => cases h
  next =>
    cases h
    exact .inl rfl

/-- Every value of the solution is a bound of its column. -/
theorem bound_of_mem_solveByBounds {x : Rat} (hx : x ∈ (solveByBounds p).solution) :
    ∃ c ∈ p.columns, x = c.lower ∨ c.upper = .upTo x := by
  unfold solveByBounds at hx
  split at hx
  next => cases hx
  next solution hsolution =>
    obtain ⟨hlength, hat⟩ := mapM_eq_some hsolution
    obtain ⟨i, hi⟩ := List.mem_iff_getElem?.mp hx
    have hlt : i < (p.objective.zip p.columns).length :=
      hlength ▸ (List.getElem?_eq_some_iff.mp hi).1
    obtain ⟨pair, hpair⟩ : ∃ pair, (p.objective.zip p.columns)[i]? = some pair :=
      ⟨_, List.getElem?_eq_getElem hlt⟩
    obtain ⟨x', hx', hbest⟩ := hat i pair hpair
    cases hi.symm.trans hx'
    have hmem := List.of_mem_zip (show (pair.1, pair.2) ∈ _ from List.mem_of_getElem? hpair)
    exact ⟨pair.2, hmem.2, bestInBounds_bound hbest⟩

section
variable (hp : p.Continuous) (hrows : p.rows = [])
include hrows

/-- Without rows a point only has to be allowed column by column. -/
theorem feasible_of_rows_eq_nil {point : List Rat} (hlen : point.length = p.size)
    (h : ∀ (j : Nat) (c : Column Rat) (x : Rat), p.columns[j]? = some c → point[j]? = some x →
      c.Allows x) : p.Feasible point := by
  refine (p.feasible_iff_at point).mpr ⟨hlen, h, ?_⟩
  intro row hrow
  rw [hrows] at hrow
  cases hrow

include hp

/-- One column can run away while all others stay at their lower bounds. -/
theorem unbounded_of_runaway (hlower : ∀ c ∈ p.columns, c.upper.Allows c.lower) {j : Nat}
    (hcoeff : p.objective[j]? = some coeff) (hc : p.columns[j]? = some c)
    (hslope : p.sign * coeff < 0) (hendless : c.upper = .endless) (bound : Rat) :
    ∃ point, p.Feasible point ∧ p.AsGood (p.value point) bound := by
  obtain ⟨amount, hamount, hle⟩ := exists_nonneg_mul_le hslope (p.sign * p.base) (p.sign * bound)
  -- All columns stay at their lower bounds but the one that runs away.
  let away : Nat → Rat := Function.update (fun _ => 0) j amount
  refine ⟨p.pointAt away, feasible_of_rows_eq_nil hrows (p.length_pointAt away) ?_, ?_⟩
  · intro k c' x hc' hx
    have hmem := List.mem_of_getElem? hc'
    rw [p.getElem?_pointAt away hc'] at hx
    cases hx
    by_cases hk : k = j
    · subst hk
      cases hc.symm.trans hc'
      have haway : away k = amount := Function.update_self ..
      rw [haway]
      exact ⟨by linarith, by rw [hendless]; trivial, by simp [hp.columns c hmem]⟩
    · have haway : away k = 0 := Function.update_of_ne hk ..
      rw [haway, add_zero]
      exact ⟨le_refl _, hlower c' hmem, by simp [hp.columns c' hmem]⟩
  · have hzero : form p.objective (fun _ => 0) = 0 := form_eq_zero _ _ fun _ => mul_zero _
    have hform : form p.objective away = coeff * amount := by
      rw [form_update, hzero, List.getD_eq_getElem?_getD, hcoeff, Option.getD_some]
      ring
    rw [p.asGood_iff, p.value_pointAt hp, hform]
    linarith

/-- A point whose every column is as good as the column can be. -/
theorem isOptimal_of_columns {solution : List Rat} (hsize : solution.length = p.size)
    (h : ∀ (j : Nat) (c : Column Rat) (x : Rat), p.columns[j]? = some c → solution[j]? = some x →
      c.Allows x ∧ ∀ other, c.Allows other → 0 ≤ p.sign * p.objective.getD j 0 * (other - x)) :
    p.IsOptimal solution := by
  refine ⟨feasible_of_rows_eq_nil hrows hsize fun j c x hc hx => (h j c x hc hx).1, ?_⟩
  intro other hother
  obtain ⟨hlength, hallows, _⟩ := (p.feasible_iff_at other).mp hother
  rw [p.asGood_iff, Program.value, Program.value, dot_eq_form, dot_eq_form, ← sub_nonneg,
    ← mul_sub, ← form_sub, ← form_map_mul _ _ _ fun _ => rfl]
  refine form_nonneg _ _ ?_
  intro j hj
  rw [List.length_map, hp.objective] at hj
  obtain ⟨c, hc⟩ : ∃ c, p.columns[j]? = some c := ⟨_, List.getElem?_eq_getElem hj⟩
  obtain ⟨x, hx⟩ : ∃ x, solution[j]? = some x := ⟨_, List.getElem?_eq_getElem (by rwa [hsize])⟩
  obtain ⟨z, hz⟩ : ∃ z, other[j]? = some z := ⟨_, List.getElem?_eq_getElem (by rwa [hlength])⟩
  rw [getD_map_of_zero (mul_zero _), List.getD_eq_getElem?_getD (l := other), hz,
    List.getD_eq_getElem?_getD (l := solution), hx]
  exact (h j c x hc hx).2 z (hallows j c z hc hz)

/-- What is answered to a program without rows is true. -/
theorem solveByBounds_trueOf (hlower : ∀ c ∈ p.columns, c.upper.Allows c.lower)
    (maxPivots : Int) : (solveByBounds p).TrueOf p maxPivots := by
  have hzip (j : Nat) (coeff : Rat) (c : Column Rat) :
      (p.objective.zip p.columns)[j]? = some (coeff, c) ↔
        p.objective[j]? = some coeff ∧ p.columns[j]? = some c := List.getElem?_zip_eq_some
  unfold solveByBounds
  cases hbest : (p.objective.zip p.columns).mapM fun c => bestInBounds p.maximize c.1 c.2 with
  | none =>
    -- Some column has a slope and no bound against it.
    obtain ⟨⟨coeff, c⟩, hmem, hnone⟩ := exists_of_mapM_eq_none hbest
    obtain ⟨j, hj⟩ := List.mem_iff_getElem?.mp hmem
    obtain ⟨hcoeff, hc⟩ := (hzip j coeff c).mp hj
    obtain ⟨hslope, hendless⟩ := bestInBounds_eq_none hnone
    exact unbounded_of_runaway hp hrows hlower hcoeff hc hslope hendless
  | some solution =>
    obtain ⟨hlength, hat⟩ := mapM_eq_some hbest
    have hsize : solution.length = p.size := by
      rw [hlength, List.length_zip, hp.objective]
      exact min_self _
    -- Without rows every column is best on its own.
    refine trueOf_solved (isOptimal_of_columns hp hrows hsize ?_)
    intro j c x hc hx
    have hj : j < p.objective.length := by
      rw [hp.objective]
      exact (List.getElem?_eq_some_iff.mp hc).1
    obtain ⟨x', hx', hbest⟩ := hat j _ ((hzip j _ c).mpr ⟨getElem?_eq_some_getD hj, hc⟩)
    cases hx.symm.trans hx'
    have hmem := List.mem_of_getElem? hc
    exact bestInBounds_eq_some (hp.columns c hmem) (hlower c hmem) hbest

end

end Simplex

end GoalBudget
