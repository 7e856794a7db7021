import GoalBudget.Proofs.Simplex.Unimodular
import Mathlib.Algebra.Ring.Subring.Basic

/-!
# Whole solutions

If all data of the program of a network are whole numbers, so are the right sides of the lines that
a run starts from. A pivot divides by one or minus one and takes off multiples by signs, so it keeps
them whole (`Reaches.rhs_mem_whole`), and an optimal solution is read off them. Main result:
`solution_whole`.

Whole numbers are a subring of the rationals here, so that sums, products and signs need no lemma of
their own. What has to be said is how the solver gets from data to right sides and back: shifting by
lower bounds and turning rows on the way in (`rhs_standardRows_mem_whole`), adding lower bounds and
holding within the bounds on the way out (`withinBounds_mem_whole`).

Programs without rows are covered as well: every column is set to one of its bounds
(`solveByBounds_whole`).
-/

namespace GoalBudget

/-- The whole numbers. -/
abbrev whole : Subring Rat := (Int.castRingHom Rat).range

theorem mem_whole_iff {x : Rat} : x ∈ whole ↔ x.den = 1 := by
  constructor
  · rintro ⟨k, rfl⟩
    exact Rat.den_intCast k
  · intro h
    exact ⟨x.num, (Rat.den_eq_one_iff x).mp h⟩

instance (x : Rat) : Decidable (x ∈ whole) := decidable_of_iff _ mem_whole_iff.symm

theorem IsSign.mem_whole {c : Rat} (h : IsSign c) : c ∈ whole := by
  rcases h with rfl | rfl | rfl
  · exact neg_mem (one_mem whole)
  · exact zero_mem whole
  · exact one_mem whole

/-- The greater of two whole numbers is whole. -/
theorem greatest_mem_whole {a b : Rat} (ha : a ∈ whole) (hb : b ∈ whole) :
    greatest a b ∈ whole := by
  unfold greatest
  split
  next => exact hb
  next => exact ha

theorem dot_mem_whole {coeffs values : List Rat} (hcoeffs : ∀ a ∈ coeffs, a ∈ whole)
    (hvalues : ∀ x ∈ values, x ∈ whole) : dot coeffs values ∈ whole := by
  rw [dot, total_eq_sum, ← List.map_uncurry_zip_eq_zipWith]
  refine list_sum_mem fun product hproduct => ?_
  obtain ⟨pair, hpair, rfl⟩ := List.mem_map.mp hproduct
  obtain ⟨ha, hx⟩ := List.of_mem_zip (show (pair.1, pair.2) ∈ _ from hpair)
  exact mul_mem (hcoeffs _ ha) (hvalues _ hx)

/-- Whether a limit that is reached is reached at a whole number. -/
def Limit.IsWhole : Limit Rat → Prop
  | .upTo bound => bound ∈ whole
  | .endless => True

/-- A whole number held at a whole limit is whole. -/
theorem Limit.hold_mem_whole {limit : Limit Rat} (hlimit : limit.IsWhole) {x : Rat}
    (hx : x ∈ whole) : limit.hold x ∈ whole := by
  cases limit with
  | upTo bound =>
    show least x bound ∈ whole
    unfold least
    split
    next => exact hlimit
    next => exact hx
  | endless => exact hx

/-- Whether the bounds of a column are whole. -/
def Column.IsWhole (c : Column Rat) : Prop := c.lower ∈ whole ∧ c.upper.IsWhole

/-- Whether the coefficients and the right side of a row are whole. -/
def Row.IsWhole (r : Row Rat) : Prop := (∀ a ∈ r.coeffs, a ∈ whole) ∧ r.rhs ∈ whole

/-- A program of whole numbers; its objective need not be. -/
structure Program.IsWhole (p : Program Rat) : Prop where
  columns : ∀ c ∈ p.columns, c.IsWhole
  rows : ∀ r ∈ p.rows, r.IsWhole

/-- Whether a statement about bounds or a row is one about whole numbers. -/
def Call.IsWhole : Call Rat → Prop
  | .bounds _ lower upper => lower ∈ whole ∧ upper.IsWhole
  | .row r => r.IsWhole
  | _ => True

theorem Program.isWhole_ofCalls {n : Nat} {calls : List (Call Rat)}
    (h : ∀ call ∈ calls, call.IsWhole) : (ofCalls n calls).IsWhole := by
  constructor
  case columns =>
    exact forall_columns_ofCalls ⟨zero_mem whole, trivial⟩ (fun _ _ _ hcall _ _ => h _ hcall)
      fun _ _ => ⟨zero_mem whole, one_mem whole⟩
  case rows =>
    intro r hr
    rw [rows_ofCalls, List.mem_filterMap] at hr
    obtain ⟨call, hcall, hrow⟩ := hr
    cases call with
    | row row =>
      cases hrow
      exact h _ hcall
    | objective => cases hrow
    | bounds => cases hrow
    | binary => cases hrow

namespace Simplex

variable {s : Simplex Rat} {t t' : Tableau Rat} {n : Nat}

/-! ## The first lines -/

theorem rhs_standardRows_mem_whole {p : Program Rat} (hp : p.IsWhole) {r : Row Rat}
    (hr : r ∈ standardRows p) : r.rhs ∈ whole := by
  have hturn {row : Row Rat} (hrow : row.rhs ∈ whole) : (orient row).rhs ∈ whole := by
    unfold orient
    split
    next => exact neg_mem hrow
    next => exact hrow
  rcases mem_standardRows.mp hr with ⟨row, hrow, rfl⟩ | ⟨j, c, row, hc, hbound, rfl⟩
  · obtain ⟨hcoeffs, hrhs⟩ := hp.rows row hrow
    refine hturn (sub_mem hrhs (dot_mem_whole hcoeffs ?_))
    rw [List.forall_mem_map]
    exact fun c hc => (hp.columns c hc).1
  · obtain ⟨bound, hfinite, rfl⟩ := Option.map_eq_some_iff.mp hbound
    obtain ⟨hlower, hupper⟩ := hp.columns c (List.mem_of_getElem? hc)
    refine hturn (sub_mem ?_ hlower)
    cases hlimit : c.upper with
    | endless =>
      rw [hlimit] at hfinite
      cases hfinite
    | upTo limit =>
      rw [hlimit] at hfinite hupper
      cases hfinite
      exact hupper

/-! ## Pivots -/

/-- A pivot at a sign keeps the right sides whole. -/
theorem rhs_pivot_mem_whole {row column : Nat} (hpivot : t.pivot row column = .ok t')
    (hsign : ∀ a ∈ t.lines, IsSign (a.coeff column)) (hwhole : ∀ a ∈ t.lines, a.rhs ∈ whole) :
    ∀ a ∈ t'.lines, a.rhs ∈ whole := by
  obtain ⟨line, hline, hne, _, _⟩ := Tableau.pivot_spec hpivot
  have hmem := List.mem_of_getElem? hline
  have hnormal : (line.normalize column).rhs ∈ whole := by
    show line.rhs / line.coeff column ∈ whole
    rcases hsign line hmem with h | h | h
    · rw [h, div_neg, div_one]
      exact neg_mem (hwhole line hmem)
    · exact absurd h hne
    · rw [h, div_one]
      exact hwhole line hmem
  intro a' ha'
  obtain ⟨i, hi⟩ := List.mem_iff_getElem?.mp ha'
  rcases (Tableau.getElem?_pivot hpivot hline).mp hi with ⟨_, rfl⟩ | ⟨_, a, ha, rfl⟩
  · exact hnormal
  · have ha := List.mem_of_getElem? ha
    rw [rhs_eliminate]
    exact sub_mem (hwhole a ha) (mul_mem (hsign a ha).mem_whole hnormal)

theorem Reaches.rhs_mem_whole {lines lines' : List (Line Rat)} (h : Reaches n lines lines')
    (hc : Canonical n lines) (hcut : Cuttable lines) (hwhole : ∀ a ∈ lines, a.rhs ∈ whole) :
    ∀ a ∈ lines', a.rhs ∈ whole := by
  induction h with
  | refl => exact hwhole
  | tail hbefore hpivots ih =>
    obtain ⟨t, t', row, column, rfl, rfl, _, hpivot⟩ := hpivots
    obtain ⟨hc₁, hsame⟩ := Reaches.canonical hbefore hc
    exact rhs_pivot_mem_whole hpivot (fun a ha => hc₁.isSign_coeff hsame hcut ha column) ih

/-- The basic point of whole right sides is whole. -/
theorem basicPoint_mem_whole (h : ∀ a ∈ t.lines, a.rhs ∈ whole) :
    ∀ x ∈ t.basicPoint n, x ∈ whole := by
  refine List.foldlRecOn t.lines _
    (motive := fun point : List Rat => ∀ x ∈ point, x ∈ whole) ?_ ?_
  · intro x hx
    rw [List.eq_of_mem_replicate hx]
    exact zero_mem whole
  · intro point hpoint a ha x hx
    rcases List.mem_or_eq_of_mem_set hx with hx | rfl
    · exact hpoint x hx
    · exact h a ha

/-! ## Solutions -/

/-- Whole distances give whole values. -/
theorem withinBounds_mem_whole {columns : List (Column Rat)} {distances : List Rat}
    (hcolumns : ∀ c ∈ columns, c.IsWhole) (hdistances : ∀ y ∈ distances, y ∈ whole) :
    ∀ x ∈ withinBounds columns distances, x ∈ whole := by
  intro x hx
  rw [withinBounds, ← List.map_uncurry_zip_eq_zipWith] at hx
  obtain ⟨pair, hpair, rfl⟩ := List.mem_map.mp hx
  obtain ⟨hc, hy⟩ := List.of_mem_zip (show (pair.1, pair.2) ∈ _ from hpair)
  obtain ⟨hlower, hupper⟩ := hcolumns _ hc
  exact Limit.hold_mem_whole hupper
    (greatest_mem_whole (add_mem hlower (hdistances _ hy)) hlower)

/-- Without rows the solution is made of bounds. -/
theorem solveByBounds_whole {p : Program Rat} (hcolumns : ∀ c ∈ p.columns, c.IsWhole) :
    ∀ x ∈ (solveByBounds p).solution, x ∈ whole := by
  intro x hx
  obtain ⟨c, hc, rfl | hupper⟩ := bound_of_mem_solveByBounds hx
  · exact (hcolumns c hc).1
  · have hwhole := (hcolumns c hc).2
    rwa [hupper] at hwhole

/-- A program of whole numbers whose rows are a network has whole solutions. -/
theorem solution_whole (hp : s.program.Continuous) (hnetwork : IsNetwork s.program.rows)
    (hwhole : s.program.IsWhole) (htolerance : 0 ≤ s.tolerance) {answer : Answer Rat}
    (h : s.solve = .ok answer) (hstatus : answer.status = .optimal) :
    ∀ x ∈ answer.solution, x ∈ whole := by
  unfold solve at h
  split at h
  next =>
    cases h
    intro x hx
    cases hx
  next =>
    split at h
    next =>
      cases h
      cases hstatus
    next =>
      split at h
      next =>
        cases h
        exact solveByBounds_whole hwhole.columns
      next =>
        obtain ⟨t, hvisits, hsolution⟩ := solution_of_solveByPivots htolerance h hstatus
        rw [hsolution]
        refine withinBounds_mem_whole hwhole.columns (basicPoint_mem_whole ?_)
        -- Every tableau visited has whole right-hand sides once the first one has.
        refine Reaches.rhs_mem_whole hvisits.reaches (canonical_firstStart hp)
          (cuttable_firstStart hp hnetwork) fun a ha => ?_
        obtain ⟨r, hr, hrhs⟩ := exists_row ha
        rw [hrhs]
        exact rhs_standardRows_mem_whole hwhole hr

end Simplex

end GoalBudget
