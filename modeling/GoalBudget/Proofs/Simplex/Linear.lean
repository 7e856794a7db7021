import GoalBudget.Program.Basic
import GoalBudget.Proofs.Number.Exact
import GoalBudget.Simplex.Tableau
import Mathlib.Algebra.BigOperators.Field
import Mathlib.Algebra.BigOperators.Intervals
import Mathlib.Algebra.Order.BigOperators.Group.Finset
import Mathlib.Data.List.GetD

/-!
# Linear forms at assignments

A program and a tableau keep coefficients in lists. What such a list says is said here about
assignments, functions from columns to amounts: `form cells y` is the value of the linear form with
coefficients `cells` where column `j` is worth `y j`. An assignment has a value in every column, so
columns can be added to a system without touching the assignments of the old one.

There is one lemma for each way in which the solver changes a list of coefficients (`form_map_mul`,
`form_zipWith_sub`, `form_set`, `form_append`), and one for each way in which an assignment is
changed (`form_sub`, `form_update`). Together with the sums over few columns (`form_eq_single`,
`form_eq_zero`, `form_nonneg`) they are all that later modules use: none of them opens `form`.

The last section is the way back to the lists that a program is about: a product of lists is the
form at the assignment that reads the list (`dot_eq_form`).
-/

namespace GoalBudget

/-- The value of a linear form at an assignment. -/
def form (cells : List Rat) (y : Nat → Rat) : Rat :=
  ∑ j ∈ Finset.range cells.length, cells.getD j 0 * y j

/-! ## Coefficients -/

/-- Within the list the default is not used. -/
theorem getElem?_eq_some_getD {cells : List Rat} {j : Nat} (h : j < cells.length) :
    cells[j]? = some (cells.getD j 0) := by
  rw [List.getD_eq_getElem _ _ h]
  exact List.getElem?_eq_getElem h

theorem getD_map_of_zero {f : Rat → Rat} (h : f 0 = 0) (cells : List Rat) (j : Nat) :
    (cells.map f).getD j 0 = f (cells.getD j 0) := by
  have hmap := List.getD_map (n := j) (l := cells) (d := 0) f
  rwa [h] at hmap

theorem getD_zipWith_of_zero {f : Rat → Rat → Rat} (h : f 0 0 = 0) {as bs : List Rat}
    (hlen : as.length = bs.length) (j : Nat) :
    (List.zipWith f as bs).getD j 0 = f (as.getD j 0) (bs.getD j 0) := by
  by_cases hj : j < as.length
  · have hb : j < bs.length := by omega
    rw [List.getD_eq_getElem _ _ (by rw [List.length_zipWith]; omega), List.getElem_zipWith,
      List.getD_eq_getElem _ _ hj, List.getD_eq_getElem _ _ hb]
  · rw [List.getD_eq_default _ _ (by rw [List.length_zipWith]; omega),
      List.getD_eq_default _ _ (by omega), List.getD_eq_default _ _ (by omega), h]

theorem getD_set_of_ne {cells : List Rat} {i j : Nat} (h : i ≠ j) {v : Rat} :
    (cells.set i v).getD j 0 = cells.getD j 0 := by
  rw [List.getD_eq_getElem?_getD, List.getElem?_set_ne h, List.getD_eq_getElem?_getD]

/-- A coefficient set within the list is the new one. -/
theorem getD_set_of_lt {cells : List Rat} {i : Nat} (h : i < cells.length) {j : Nat} {v : Rat} :
    (cells.set i v).getD j 0 = if i = j then v else cells.getD j 0 := by
  by_cases hij : i = j
  · subst hij
    rw [if_pos rfl, List.getD_eq_getElem?_getD, List.getElem?_set_self h, Option.getD_some]
  · rw [if_neg hij, getD_set_of_ne hij]

theorem getD_append_zeros (cells : List Rat) (k j : Nat) :
    (cells ++ List.replicate k 0).getD j 0 = cells.getD j 0 := by
  by_cases hj : j < cells.length
  · exact List.getD_append _ _ _ _ hj
  · have hj := not_lt.mp hj
    rw [List.getD_append_right _ _ _ _ hj, List.getD_eq_default cells _ hj]
    by_cases hk : j - cells.length < k
    · exact List.getD_replicate _ hk
    · exact List.getD_eq_default _ _ (by rw [List.length_replicate]; omega)

theorem getD_take_of_lt {cells : List Rat} {j n : Nat} (h : j < n) :
    (cells.take n).getD j 0 = cells.getD j 0 := by
  rw [List.getD_eq_getElem?_getD, List.getElem?_take_of_lt h, ← List.getD_eq_getElem?_getD]

/-! ## Changes of the coefficients -/

section
variable (cells : List Rat) (y : Nat → Rat)

theorem form_eq_sum {n : Nat} (h : cells.length ≤ n) :
    form cells y = ∑ j ∈ Finset.range n, cells.getD j 0 * y j := by
  refine Finset.sum_subset (Finset.range_subset_range.mpr h) ?_
  intro j _ hj
  rw [List.getD_eq_default _ _ (by simpa using hj), zero_mul]

theorem form_congr {y z : Nat → Rat} (h : ∀ j < cells.length, y j = z j) :
    form cells y = form cells z := by
  refine Finset.sum_congr rfl ?_
  intro j hj
  rw [h j (Finset.mem_range.mp hj)]

theorem form_map_mul {f : Rat → Rat} (k : Rat) (h : ∀ c, f c = k * c) :
    form (cells.map f) y = k * form cells y := by
  rw [form, form, List.length_map, Finset.mul_sum]
  refine Finset.sum_congr rfl ?_
  intro j _
  rw [getD_map_of_zero (by rw [h, mul_zero]), h, mul_assoc]

theorem form_append_zeros (k : Nat) :
    form (cells ++ List.replicate k 0) y = form cells y := by
  rw [form, form_eq_sum cells y (n := (cells ++ List.replicate k 0).length) (by simp)]
  refine Finset.sum_congr rfl ?_
  intro j _
  rw [getD_append_zeros]

theorem form_append (others : List Rat) :
    form (cells ++ others) y = form cells y + form others fun j => y (cells.length + j) := by
  rw [form, form, form, List.length_append, Finset.sum_range_add]
  congr 1
  · refine Finset.sum_congr rfl ?_
    intro j hj
    rw [List.getD_append _ _ _ _ (Finset.mem_range.mp hj)]
  · refine Finset.sum_congr rfl ?_
    intro j _
    rw [List.getD_append_right _ _ _ _ (Nat.le_add_right _ _), Nat.add_sub_cancel_left]

theorem form_cons (c : Rat) :
    form (c :: cells) y = c * y 0 + form cells fun j => y (j + 1) := by
  rw [form, form, List.length_cons, Finset.sum_range_succ', add_comm]
  rfl

theorem form_replicate_zero (n : Nat) : form (List.replicate n 0) y = 0 := by
  refine Finset.sum_eq_zero ?_
  intro j hj
  rw [Finset.mem_range, List.length_replicate] at hj
  rw [List.getD_replicate _ hj, zero_mul]

theorem form_map_items {τ : Type} (f : τ → Rat) (items : List τ) :
    form (items.map f) y = (items.zipIdx.map fun e => f e.1 * y e.2).sum := by
  induction items generalizing y with
  | nil => rfl
  | cons item rest ih =>
    rw [List.map_cons, form_cons, ih, List.zipIdx_cons, List.map_cons, List.sum_cons,
      List.zipIdx_succ, List.map_map]
    rfl

/-- Taking off a multiple of one list takes off that multiple of its value. -/
theorem form_zipWith_sub {as bs : List Rat} (h : as.length = bs.length) (k : Rat) :
    form (List.zipWith (fun a b => a - k * b) as bs) y = form as y - k * form bs y := by
  have hlen : (List.zipWith (fun a b => a - k * b) as bs).length = as.length := by
    rw [List.length_zipWith, ← h, min_self]
  rw [form, hlen, form, form, ← h, Finset.mul_sum, ← Finset.sum_sub_distrib]
  refine Finset.sum_congr rfl ?_
  intro j _
  rw [getD_zipWith_of_zero (by ring) h]
  ring

/-- Setting a coefficient changes the value by the difference in its column. -/
theorem form_set {i : Nat} (h : i < cells.length) (v : Rat) :
    form (cells.set i v) y = form cells y + (v - cells.getD i 0) * y i := by
  have hi := Finset.mem_range.mpr h
  rw [form, form, List.length_set, ← Finset.add_sum_erase _ _ hi, ← Finset.add_sum_erase _ _ hi]
  have hrest : ∑ j ∈ (Finset.range cells.length).erase i, (cells.set i v).getD j 0 * y j =
      ∑ j ∈ (Finset.range cells.length).erase i, cells.getD j 0 * y j := by
    refine Finset.sum_congr rfl ?_
    intro j hj
    rw [getD_set_of_lt h, if_neg (Ne.symm (Finset.mem_erase.mp hj).1)]
  rw [hrest, getD_set_of_lt h, if_pos rfl]
  ring

theorem form_unit {n j : Nat} (hj : j < n) : form ((List.replicate n 0).set j 1) y = y j := by
  rw [form_set _ _ (by rwa [List.length_replicate]), form_replicate_zero,
    List.getD_replicate _ hj]
  ring

end

/-! ## Changes of the assignment -/

section
variable (cells : List Rat) (y z : Nat → Rat)

theorem form_sub : form cells (fun j => y j - z j) = form cells y - form cells z := by
  rw [form, form, form, ← Finset.sum_sub_distrib]
  refine Finset.sum_congr rfl ?_
  intro j _
  ring

theorem form_update (i : Nat) (v : Rat) :
    form cells (Function.update y i v) = form cells y + cells.getD i 0 * (v - y i) := by
  by_cases hi : i < cells.length
  · have hi := Finset.mem_range.mpr hi
    rw [form, form, ← Finset.add_sum_erase _ _ hi, ← Finset.add_sum_erase _ _ hi]
    have hrest : ∑ j ∈ (Finset.range cells.length).erase i,
        cells.getD j 0 * Function.update y i v j =
        ∑ j ∈ (Finset.range cells.length).erase i, cells.getD j 0 * y j := by
      refine Finset.sum_congr rfl ?_
      intro j hj
      rw [Function.update_of_ne (Finset.mem_erase.mp hj).1]
    rw [hrest, Function.update_self]
    ring
  · rw [List.getD_eq_default _ _ (not_lt.mp hi), zero_mul, add_zero]
    refine form_congr cells ?_
    intro j hj
    rw [Function.update_of_ne (by omega)]

theorem form_eq_single {i : Nat} (h : ∀ j, j ≠ i → cells.getD j 0 * y j = 0) :
    form cells y = cells.getD i 0 * y i := by
  rw [form_eq_sum cells y (n := cells.length + i + 1) (by omega)]
  refine Finset.sum_eq_single i (fun j _ hj => h j hj) ?_
  intro hi
  exact absurd (Finset.mem_range.mpr (by omega)) hi

theorem form_eq_zero (h : ∀ j, cells.getD j 0 * y j = 0) : form cells y = 0 :=
  Finset.sum_eq_zero fun j _ => h j

theorem form_nonneg (h : ∀ j < cells.length, 0 ≤ cells.getD j 0 * y j) : 0 ≤ form cells y :=
  Finset.sum_nonneg fun j hj => h j (Finset.mem_range.mp hj)

end

/-- An amount large enough for a negative slope to reach a bound. -/
theorem exists_nonneg_mul_le {slope : Rat} (h : slope < 0) (start bound : Rat) :
    ∃ amount, 0 ≤ amount ∧ start + amount * slope ≤ bound := by
  refine ⟨max 0 ((bound - start) / slope), le_max_left _ _, ?_⟩
  have hfall := mul_le_mul_of_nonpos_right (le_max_right 0 ((bound - start) / slope)) (le_of_lt h)
  rw [div_mul_cancel₀ _ (ne_of_lt h)] at hfall
  linarith

/-! ## Points of a program -/

/-- The products of a program's row and a point add up to the form at the point. -/
theorem dot_eq_form (coeffs point : List Rat) :
    dot coeffs point = form coeffs fun j => point.getD j 0 := by
  rw [dot, total_eq_sum]
  induction coeffs generalizing point with
  | nil => rfl
  | cons c coeffs ih =>
    cases point with
    | nil =>
      rw [List.zipWith_nil_right, List.sum_nil]
      exact (form_eq_zero _ _ fun j => by rw [List.getD_nil, mul_zero]).symm
    | cons x point =>
      rw [List.zipWith_cons_cons, List.sum_cons, ih, form_cons, List.getD_cons_zero]
      simp only [List.getD_cons_succ]

theorem dot_ones_append_zeros (n k : Nat) (point : List Rat) :
    dot (List.replicate n 1 ++ List.replicate k 0) point = (point.take n).sum := by
  rw [dot_eq_form, form_append_zeros]
  induction n generalizing point with
  | zero => rfl
  | succ n ih =>
    rw [List.replicate_succ, form_cons, one_mul]
    cases point with
    | nil => simpa using ih []
    | cons x rest =>
      rw [List.take_succ_cons, List.sum_cons, ← ih rest, List.getD_cons_zero]
      simp only [List.getD_cons_succ]

/-- The columns of a feasible point, one by one. -/
theorem Program.feasible_iff_at (p : Program Rat) (point : List Rat) :
    p.Feasible point ↔ point.length = p.size ∧
      (∀ (j : Nat) (c : Column Rat) (x : Rat), p.columns[j]? = some c → point[j]? = some x →
        c.Allows x) ∧ ∀ row ∈ p.rows, row.Holds point := by
  rw [Feasible, and_congr_right_iff]
  intro _
  refine and_congr_left fun _ => ⟨?_, ?_⟩
  · intro h j c x hc hx
    exact h (c, x) (List.mem_of_getElem? (List.getElem?_zip_eq_some.mpr ⟨hc, hx⟩))
  · rintro h ⟨c, x⟩ hpair
    obtain ⟨j, hj⟩ := List.mem_iff_getElem?.mp hpair
    obtain ⟨hc, hx⟩ := List.getElem?_zip_eq_some.mp hj
    exact h j c x hc hx

end GoalBudget
