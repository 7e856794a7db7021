import GoalBudget.Proofs.Simplex.Vertex

/-!
# What the basic columns determine

On an assignment that is zero off the basic columns but for one more column, a line in canonical
form sees its own basic column and this one only (`Canonical.form_eq`). The vertex and the rays of a
tableau are such assignments. So whatever system a canonical tableau has the solutions of, its
entries can be read off these solutions once it is known which column each line is solved for: the
right sides off the vertex (`rhs_eq_of_basics`), the coefficients off the rays
(`coeff_eq_of_basics`).

Two tableaus that represent the same system and objective, with the same basic columns in the same
order, are thus equal. Main result: `Represents.eq_of_basics`.

This is why a run can only go round in circles or end: there are finitely many choices of basic
columns, and the choice determines the whole tableau, the cost line included. Nothing about pivots
is used here.
-/

namespace GoalBudget.Simplex

variable {n j : Nat} {lines lines' : List (Line Rat)}

/-- The columns that the lines are solved for, in order. -/
def basics (lines : List (Line Rat)) : List Nat := lines.map (·.basic)

/-- Lists of one length are equal if they have the same coefficients. -/
theorem ext_getD {as bs : List Rat} (hlen : as.length = bs.length)
    (h : ∀ j, as.getD j 0 = bs.getD j 0) : as = bs := by
  refine List.ext_getElem hlen fun j hj hj' => ?_
  rw [← List.getD_eq_getElem as 0 hj, ← List.getD_eq_getElem bs 0 hj']
  exact h j

/-- A column is not basic if no line is solved for it. -/
theorem not_mem_basics : j ∉ basics lines ↔ ∀ l ∈ lines, l.basic ≠ j := by
  rw [basics, List.mem_map]
  push Not
  rfl

/-! ## What a line sees -/

/-- In a basic column a line has one or zero. -/
theorem Canonical.coeff_of_mem_basics (hc : Canonical n lines) {a : Line Rat} (ha : a ∈ lines)
    (hj : j ∈ basics lines) : a.coeff j = if a.basic = j then 1 else 0 := by
  obtain ⟨b, hb, rfl⟩ := List.mem_map.mp hj
  split
  next hbasic => rw [← hbasic, hc.coeff_basic ha]
  next hbasic =>
    by_contra hne
    exact hbasic (congrArg Line.basic (hc.eq_of_coeff_ne_zero ha hb hne))

/-- A line sees its own basic column and the one column that is not zero. -/
theorem Canonical.form_eq (hc : Canonical n lines) {a : Line Rat} (ha : a ∈ lines)
    (hj : j ∉ basics lines) {y : Nat → Rat} (hy : ∀ k, k ∉ basics lines → k ≠ j → y k = 0) :
    form a.cells y = y a.basic + a.coeff j * y j := by
  have hsingle (k : Nat) (hk : k ≠ a.basic) : a.coeff k * Function.update y j 0 k = 0 := by
    by_cases hkj : k = j
    · rw [hkj, Function.update_self, mul_zero]
    · rw [Function.update_of_ne hkj]
      by_cases hbasic : k ∈ basics lines
      · -- the other basic columns do not occur in the line
        rw [hc.coeff_of_mem_basics ha hbasic, if_neg hk.symm, zero_mul]
      · rw [hy k hbasic hkj, mul_zero]
  have hne : a.basic ≠ j := not_mem_basics.mp hj a ha
  have hrest : form a.cells (Function.update y j 0) = y a.basic := by
    rw [form_eq_single _ _ hsingle, Function.update_of_ne hne]
    show a.coeff a.basic * _ = _
    rw [hc.coeff_basic ha, one_mul]
  rw [form_update] at hrest
  show _ = _ + a.cells.getD j 0 * y j
  linarith

namespace Tableau

variable {t t' : Tableau Rat} {column : Nat} {amount : Rat}

/-- Along a ray its own column has the amount gone. -/
theorem ray_column (n column : Nat) (amount : Rat) (t : Tableau Rat) :
    t.ray n column amount column = amount := by
  rw [ray, Function.update_self]

/-- Along a ray a basic column falls by the coefficient of its line. -/
theorem ray_basic (hc : Canonical n t.lines) {l : Line Rat} (hl : l ∈ t.lines)
    (hne : l.basic ≠ column) :
    t.ray n column amount l.basic = l.rhs - amount * l.coeff column := by
  rw [ray, Function.update_of_ne hne]
  exact vertex_basic (canonical_slide hc) (mem_slide column amount hl)

/-- All other columns stay zero along a ray. -/
theorem ray_nonbasic (hj : j ∉ basics t.lines) (hne : j ≠ column) :
    t.ray n column amount j = 0 := by
  rw [ray, Function.update_of_ne hne]
  exact vertex_nonbasic (slide_nonbasic (not_mem_basics.mp hj))

/-! ## Reading entries off solutions -/

/-- The vertex is the only solution that is zero off the basic columns. -/
theorem vertex_unique (hc : Canonical n t.lines) {y : Nat → Rat} (hy : Solves t.lines y)
    (hzero : ∀ k, k ∉ basics t.lines → y k = 0) : y = t.vertex n := by
  -- the column behind the last one is not basic, and no line has an entry there
  have hbehind : n ∉ basics t.lines := not_mem_basics.mpr fun l hl => (hc.basic_lt l hl).ne
  funext k
  by_cases hk : k ∈ basics t.lines
  · obtain ⟨a, ha, rfl⟩ := List.mem_map.mp hk
    have hholds : form a.cells y = a.rhs := hy a ha
    rw [hc.form_eq ha hbehind fun k hk _ => hzero k hk, hzero n hbehind, mul_zero,
      add_zero] at hholds
    rw [hholds, vertex_basic hc ha]
  · rw [hzero k hk, vertex_nonbasic (not_mem_basics.mp hk)]

section
variable (hc : Canonical n t.lines) (hc' : Canonical n t'.lines)
  (hsame : ∀ y, Solves t.lines y → Solves t'.lines y) (hbasics : basics t.lines = basics t'.lines)
  {a a' : Line Rat} (ha : a ∈ t.lines) (ha' : a' ∈ t'.lines) (hbasic : a.basic = a'.basic)

include hc hc' hsame hbasics ha ha' hbasic

theorem rhs_eq_of_basics : a.rhs = a'.rhs := by
  have hvertex : t.vertex n = t'.vertex n := vertex_unique hc' (hsame _ (solves_vertex hc))
    fun k hk => vertex_nonbasic (not_mem_basics.mp (hbasics ▸ hk))
  rw [← vertex_basic hc ha, ← vertex_basic hc' ha', hbasic, hvertex]

theorem coeff_eq_of_basics (j : Nat) : a.coeff j = a'.coeff j := by
  by_cases hj : j ∈ basics t.lines
  · rw [hc.coeff_of_mem_basics ha hj, hc'.coeff_of_mem_basics ha' (hbasics ▸ hj), hbasic]
  · have hj' : j ∉ basics t'.lines := hbasics ▸ hj
    have hne : a.basic ≠ j := not_mem_basics.mp hj a ha
    have hholds : form a'.cells (t.ray n j 1) = a'.rhs :=
      hsame _ (solves_ray hc (not_mem_basics.mp hj)) a' ha'
    have hrhs := rhs_eq_of_basics hc hc' hsame hbasics ha ha' hbasic
    rw [hc'.form_eq ha' hj' fun k hk hkj => ray_nonbasic (hbasics ▸ hk) hkj, ← hbasic,
      ray_basic hc ha hne, ray_column, hrhs] at hholds
    linarith

/-- Lines solved for one column are equal. -/
theorem line_eq_of_basics : a = a' := by
  have hlen : a.cells.length = a'.cells.length := by rw [hc.width a ha, hc'.width a' ha']
  have hcells : a.cells = a'.cells :=
    ext_getD hlen (coeff_eq_of_basics hc hc' hsame hbasics ha ha' hbasic)
  have hrhs := rhs_eq_of_basics hc hc' hsame hbasics ha ha' hbasic
  cases a
  cases a'
  cases hbasic
  cases hcells
  cases hrhs
  rfl

end

/-- Tableaus with the same solutions and the same basic columns have the same lines. -/
theorem lines_eq_of_basics (hc : Canonical n t.lines) (hc' : Canonical n t'.lines)
    (hsame : ∀ y, Solves t.lines y → Solves t'.lines y)
    (hbasics : basics t.lines = basics t'.lines) : t.lines = t'.lines := by
  have hlength : t.lines.length = t'.lines.length := by
    simpa [basics] using congrArg List.length hbasics
  refine List.ext_getElem hlength fun i hi hi' => ?_
  refine line_eq_of_basics hc hc' hsame hbasics (List.getElem_mem hi) (List.getElem_mem hi') ?_
  have hat := List.getElem_of_eq hbasics (by rwa [basics, List.length_map] : i < _)
  simpa [basics] using hat

variable {P : (Nat → Rat) → Prop} {f : (Nat → Rat) → Rat}

/-- Tableaus of the same system and objective are equal if the same columns are basic in them. -/
theorem Represents.eq_of_basics (ht : t.Represents n P f) (ht' : t'.Represents n P f)
    (hbasics : basics t.lines = basics t'.lines) : t = t' := by
  have hlines : t.lines = t'.lines :=
    lines_eq_of_basics ht.canonical ht'.canonical
      (fun y hy => (ht'.solves y).mpr ((ht.solves y).mp hy)) hbasics
  obtain ⟨lines, cost⟩ := t
  obtain ⟨lines', cost'⟩ := t'
  cases hlines
  -- the lines being equal, so are the vertex and the rays that the costs are read off
  have hrhs : -cost.rhs = -cost'.rhs := (value_vertex ht).symm.trans (value_vertex ht')
  have hcells : cost.cells = cost'.cells := by
    refine ext_getD (ht.prices.width.trans ht'.prices.width.symm) fun j => ?_
    by_cases hj : j ∈ basics lines
    · obtain ⟨b, hb, rfl⟩ := List.mem_map.mp hj
      exact (ht.prices.reduced b hb).trans (ht'.prices.reduced b hb).symm
    · have hvalue : f (ray n j 1 ⟨lines, cost⟩) = -cost.rhs + 1 * cost.coeff j :=
        value_ray ht (not_mem_basics.mp hj)
      have hvalue' : f (ray n j 1 ⟨lines, cost⟩) = -cost'.rhs + 1 * cost'.coeff j :=
        value_ray ht' (not_mem_basics.mp hj)
      have hcoeff : cost.coeff j = cost'.coeff j := by linarith
      exact hcoeff
  cases cost
  cases cost'
  cases hcells
  cases neg_injective hrhs
  rfl

end Tableau

end GoalBudget.Simplex
