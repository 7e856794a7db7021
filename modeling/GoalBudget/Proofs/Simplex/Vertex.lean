import GoalBudget.Proofs.Simplex.Canonical

/-!
# Vertices and rays

The vertex of a canonical tableau has the right sides on the basic columns and zero elsewhere. It
solves the lines (`solves_vertex`), and the objective there is the negative of the right side of the
cost line (`value_vertex`). Where no reduced cost is negative, no non-negative solution does better
(`value_ge`).

A ray leaves the vertex along one column that is not basic. As far as it goes, the basic columns
give way so that the lines stay solved (`solves_ray`), and the objective changes by the reduced cost
(`value_ray`). A ray along which no basic column falls never ends (`ray_nonneg`), and along a column
of negative cost the objective falls below every bound (`exists_ray_le`).

A ray is defined as the vertex of a tableau with other right sides (`slide`), so what is known of
vertices holds of rays as well.
-/

namespace GoalBudget.Simplex

namespace Tableau

variable {n j : Nat} {t : Tableau Rat}

/-- Entries written one after another, when all that are written to one place agree. -/
theorem getD_foldl_set {lines : List (Line Rat)} {point : List Rat} {v : Rat}
    (hj : j < point.length) (hv : ∀ l ∈ lines, l.basic = j → l.rhs = v)
    (h : (∃ l ∈ lines, l.basic = j) ∨ point.getD j 0 = v) :
    (lines.foldl (fun point l => point.set l.basic l.rhs) point).getD j 0 = v := by
  induction lines generalizing point with
  | nil => simpa using h
  | cons l rest ih =>
    rw [List.foldl_cons]
    refine ih (by rwa [List.length_set]) (fun l' hl' => hv l' (List.mem_cons_of_mem _ hl')) ?_
    by_cases hl : l.basic = j
    · right
      rw [getD_set_of_lt (hl ▸ hj), if_pos hl, hv l (List.mem_cons_self ..) hl]
    · rw [getD_set_of_ne hl]
      rcases h with ⟨l', hl', hbasic⟩ | h
      · rcases List.mem_cons.mp hl' with rfl | hl'
        · exact absurd hbasic hl
        · exact Or.inl ⟨l', hl', hbasic⟩
      · exact Or.inr h

theorem length_basicPoint : (t.basicPoint n).length = n := by
  refine List.foldlRecOn t.lines _ (motive := fun point : List Rat => point.length = n)
    List.length_replicate ?_
  intro point hpoint l _
  rw [List.length_set, hpoint]

/-- A basic column has the right side of its line. -/
theorem basicPoint_basic (hc : Canonical n t.lines) {l : Line Rat} (hl : l ∈ t.lines) {m : Nat}
    (hm : l.basic < m) : (t.basicPoint m).getD l.basic 0 = l.rhs := by
  refine getD_foldl_set (by rwa [List.length_replicate]) ?_ (Or.inl ⟨l, hl, rfl⟩)
  intro l' hl' hbasic
  rw [hc.eq_of_basic_eq hl' hl hbasic]

/-- Any other column is zero. -/
theorem basicPoint_nonbasic (h : ∀ l ∈ t.lines, l.basic ≠ j) (m : Nat) :
    (t.basicPoint m).getD j 0 = 0 := by
  by_cases hj : j < m
  · exact getD_foldl_set (by rwa [List.length_replicate]) (fun l hl hb => absurd hb (h l hl))
      (Or.inr (List.getD_replicate _ hj))
  · exact List.getD_eq_default _ _ (by rw [length_basicPoint]; omega)

/-- The basic point as an assignment. -/
def vertex (n : Nat) (t : Tableau Rat) : Nat → Rat := fun j => (t.basicPoint n).getD j 0

/-- At the vertex a basic column has the right side of its line. -/
theorem vertex_basic (hc : Canonical n t.lines) {l : Line Rat} (hl : l ∈ t.lines) :
    t.vertex n l.basic = l.rhs := basicPoint_basic hc hl (hc.basic_lt l hl)

theorem vertex_nonbasic (h : ∀ l ∈ t.lines, l.basic ≠ j) : t.vertex n j = 0 :=
  basicPoint_nonbasic h n

/-- What holds of the right side of every basic column and of zero holds all over the vertex. -/
theorem vertex_induction (hc : Canonical n t.lines) {Q : Nat → Rat → Prop}
    (hbasic : ∀ l ∈ t.lines, Q l.basic l.rhs)
    (hzero : (∀ l ∈ t.lines, l.basic ≠ j) → Q j 0) : Q j (t.vertex n j) := by
  by_cases h : ∃ l ∈ t.lines, l.basic = j
  · obtain ⟨l, hl, rfl⟩ := h
    rw [vertex_basic hc hl]
    exact hbasic l hl
  · have h : ∀ l ∈ t.lines, l.basic ≠ j := fun l hl hj => h ⟨l, hl, hj⟩
    rw [vertex_nonbasic h]
    exact hzero h

/-- The first columns of the vertex can be read off alone. -/
theorem basicPoint_eq_vertex (hc : Canonical n t.lines) {m : Nat} (hj : j < m) :
    (t.basicPoint m).getD j 0 = t.vertex n j := by
  refine (vertex_induction hc (Q := fun j v => j < m → (t.basicPoint m).getD j 0 = v) ?_ ?_) hj
  · intro l hl hm
    exact basicPoint_basic hc hl hm
  · intro h _
    exact basicPoint_nonbasic h m

theorem vertex_nonneg (hc : Canonical n t.lines) (h : ∀ l ∈ t.lines, 0 ≤ l.rhs) (j : Nat) :
    0 ≤ t.vertex n j :=
  vertex_induction hc (Q := fun _ v => 0 ≤ v) h fun _ => le_refl 0

/-- The vertex solves the lines. -/
theorem solves_vertex (hc : Canonical n t.lines) : Solves t.lines (t.vertex n) := by
  intro l hl
  -- the other basic columns do not occur in the line, the rest of the vertex is zero
  have hsingle : ∀ j, j ≠ l.basic → l.coeff j * t.vertex n j = 0 := by
    intro j hj
    refine (vertex_induction hc (Q := fun j v => j ≠ l.basic → l.coeff j * v = 0) ?_ ?_) hj
    · intro l' hl' hne
      by_contra hzero
      have heq := hc.eq_of_coeff_ne_zero hl hl' (left_ne_zero_of_mul hzero)
      exact hne (congrArg Line.basic heq.symm)
    · intro _ _
      exact mul_zero _
  rw [Line.Holds, form_eq_single _ _ hsingle, vertex_basic hc hl]
  show l.coeff l.basic * l.rhs = l.rhs
  rw [hc.coeff_basic hl, one_mul]

theorem form_cost_vertex (hc : Canonical n t.lines) {c : Cost Rat}
    (hreduced : ∀ l ∈ t.lines, c.coeff l.basic = 0) : form c.cells (t.vertex n) = 0 := by
  refine form_eq_zero _ _ ?_
  intro j
  refine vertex_induction hc (Q := fun j v => c.coeff j * v = 0) ?_ ?_
  · intro l hl
    rw [hreduced l hl, zero_mul]
  · intro _
    exact mul_zero _

variable {P : (Nat → Rat) → Prop} {f : (Nat → Rat) → Rat}

/-- The objective at the vertex stands in the cost line. -/
theorem value_vertex (ht : t.Represents n P f) : f (t.vertex n) = -t.cost.rhs := by
  rw [← ht.prices.value _ (solves_vertex ht.canonical),
    form_cost_vertex ht.canonical ht.prices.reduced, zero_sub]

/-- Where the first `allowed` reduced costs are not negative, a non-negative solution without
the other columns is no better than the vertex. -/
theorem value_ge (ht : t.Represents n P f) {allowed : Nat}
    (hcost : ∀ j < allowed, 0 ≤ t.cost.coeff j) {y : Nat → Rat} (hy : P y)
    (hnonneg : ∀ j < n, 0 ≤ y j) (hrest : ∀ j, allowed ≤ j → j < n → y j = 0) :
    -t.cost.rhs ≤ f y := by
  have hform : 0 ≤ form t.cost.cells y := by
    refine form_nonneg _ _ ?_
    intro j hj
    rw [ht.prices.width] at hj
    by_cases hallowed : j < allowed
    · exact mul_nonneg (hcost j hallowed) (hnonneg j hj)
    · rw [hrest j (not_lt.mp hallowed) hj, mul_zero]
  have hvalue := ht.prices.value y ((ht.solves y).mpr hy)
  linarith

/-! ## Rays -/

/-- The right sides that are left when a column takes an amount. -/
def slide (column : Nat) (amount : Rat) (t : Tableau Rat) : Tableau Rat :=
  { t with lines := t.lines.map fun l => { l with rhs := l.rhs - amount * l.coeff column } }

/-- The assignment with an amount in a column that is not basic, and the basic columns as the
lines then want them. -/
def ray (n column : Nat) (amount : Rat) (t : Tableau Rat) : Nat → Rat :=
  Function.update ((t.slide column amount).vertex n) column amount

variable {column : Nat} {amount : Rat}

/-- Other right sides keep the canonical form. -/
theorem canonical_slide (hc : Canonical n t.lines) :
    Canonical n (t.slide column amount).lines := by
  constructor
  case width =>
    intro l' hl'
    obtain ⟨l, hl, rfl⟩ := List.mem_map.mp hl'
    exact hc.width l hl
  case basic_lt =>
    intro l' hl'
    obtain ⟨l, hl, rfl⟩ := List.mem_map.mp hl'
    exact hc.basic_lt l hl
  case unit =>
    intro i k a' b' ha' hb'
    simp only [slide, List.getElem?_map, Option.map_eq_some_iff] at ha' hb'
    obtain ⟨a, ha, rfl⟩ := ha'
    obtain ⟨b, hb, rfl⟩ := hb'
    exact hc.unit i k a b ha hb

theorem mem_slide (column : Nat) (amount : Rat) {l : Line Rat} (hl : l ∈ t.lines) :
    { l with rhs := l.rhs - amount * l.coeff column } ∈ (t.slide column amount).lines :=
  List.mem_map.mpr ⟨l, hl, rfl⟩

/-- The basic columns stay the same. -/
theorem slide_nonbasic (h : ∀ l ∈ t.lines, l.basic ≠ j) :
    ∀ l ∈ (t.slide column amount).lines, l.basic ≠ j := by
  intro l' hl'
  obtain ⟨l, hl, rfl⟩ := List.mem_map.mp hl'
  exact h l hl

/-- What holds of the amount, of what is left to every basic column and of zero holds all over
the ray. -/
theorem ray_induction (hc : Canonical n t.lines) {Q : Nat → Rat → Prop}
    (hcolumn : Q column amount)
    (hbasic : ∀ l ∈ t.lines, l.basic ≠ column → Q l.basic (l.rhs - amount * l.coeff column))
    (hzero : (∀ l ∈ t.lines, l.basic ≠ j) → j ≠ column → Q j 0) :
    Q j (t.ray n column amount j) := by
  by_cases hj : j = column
  · subst hj
    rw [ray, Function.update_self]
    exact hcolumn
  · rw [ray, Function.update_of_ne hj]
    refine vertex_induction (canonical_slide hc) (Q := fun j v => j ≠ column → Q j v) ?_ ?_ hj
    · intro l' hl' hne
      obtain ⟨l, hl, rfl⟩ := List.mem_map.mp hl'
      exact hbasic l hl hne
    · intro h hne
      exact hzero (fun l hl hj => h _ (mem_slide column amount hl) hj) hne

/-- A ray solves the lines all along. -/
theorem solves_ray (hc : Canonical n t.lines) (hcolumn : ∀ l ∈ t.lines, l.basic ≠ column) :
    Solves t.lines (t.ray n column amount) := by
  intro l hl
  have hslide := solves_vertex (canonical_slide hc) _ (mem_slide column amount hl)
  rw [Line.Holds] at hslide
  rw [Line.Holds, ray, form_update, hslide, vertex_nonbasic (slide_nonbasic hcolumn), sub_zero]
  show l.rhs - amount * l.coeff column + l.coeff column * amount = l.rhs
  ring

/-- Along a ray the objective changes by the reduced cost of its column. -/
theorem value_ray (ht : t.Represents n P f) (hcolumn : ∀ l ∈ t.lines, l.basic ≠ column) :
    f (t.ray n column amount) = -t.cost.rhs + amount * t.cost.coeff column := by
  have hreduced : ∀ l ∈ (t.slide column amount).lines, t.cost.coeff l.basic = 0 := by
    intro l' hl'
    obtain ⟨l, hl, rfl⟩ := List.mem_map.mp hl'
    exact ht.prices.reduced l hl
  rw [← ht.prices.value _ (solves_ray ht.canonical hcolumn), ray, form_update,
    form_cost_vertex (canonical_slide ht.canonical) hreduced,
    vertex_nonbasic (slide_nonbasic hcolumn)]
  show 0 + t.cost.coeff column * (amount - 0) - t.cost.rhs = _
  ring

/-- A ray along which no basic column falls stays non-negative. -/
theorem ray_nonneg (hc : Canonical n t.lines) (hrhs : ∀ l ∈ t.lines, 0 ≤ l.rhs)
    (hcoeff : ∀ l ∈ t.lines, l.coeff column ≤ 0) (hamount : 0 ≤ amount) (j : Nat) :
    0 ≤ t.ray n column amount j := by
  refine ray_induction hc (Q := fun _ v => 0 ≤ v) hamount ?_ fun _ _ => le_refl 0
  intro l hl _
  have hfall := mul_nonpos_of_nonneg_of_nonpos hamount (hcoeff l hl)
  linarith [hrhs l hl]

/-- Along a column of negative cost the objective falls below every bound. -/
theorem exists_ray_le (ht : t.Represents n P f) (hcost : t.cost.coeff column < 0)
    (bound : Rat) :
    ∃ amount, 0 ≤ amount ∧ P (t.ray n column amount) ∧ f (t.ray n column amount) ≤ bound := by
  have hcolumn : ∀ l ∈ t.lines, l.basic ≠ column := by
    intro l hl hbasic
    have hzero := ht.prices.reduced l hl
    rw [hbasic] at hzero
    exact absurd hzero (ne_of_lt hcost)
  obtain ⟨amount, hamount, hle⟩ := exists_nonneg_mul_le hcost (-t.cost.rhs) bound
  refine ⟨amount, hamount, (ht.solves _).mp (solves_ray ht.canonical hcolumn), ?_⟩
  rwa [value_ray ht hcolumn]

end Tableau

end GoalBudget.Simplex
