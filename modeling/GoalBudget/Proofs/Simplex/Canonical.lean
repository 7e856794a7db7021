import GoalBudget.Proofs.Simplex.Linear

/-!
# Tableaus in canonical form

Lines are in canonical form when every basic column occurs in its own line only, with coefficient
one (`Canonical`). A cost line prices an objective over such lines when it is zero on the basic
columns and agrees with the objective on every solution, up to the right side (`Cost.Prices`). A
tableau represents a system and an objective when both hold and its solutions are those of the
system (`Tableau.Represents`). This is the invariant that every result about a run is read off.

A pivot keeps all of this (`represents_pivot`), whatever line and column it is made at: the choice
of column and line matters for the sign of the right sides only, which is dealt with where the
choice is. The parts are

* `canonical_pivot`: the pivot column is basic in its line and removed from the others, and the
  other basic columns are not touched, since the pivot line has zero there;
* `solves_pivot`: the solutions are the same, because elimination can be undone;
* `prices_pivot`: the cost changes by a multiple of the pivot line, which is worth nothing on
  solutions.

Elimination leaves a line alone when its coefficient is zero. The lemmas on `Line.eliminate` hide
this case, since taking off nothing gives the same line (`coeff_eliminate`, `rhs_eliminate`,
`form_eliminate`).
-/

namespace GoalBudget.Simplex

/-- Whether an assignment satisfies an equation. -/
def Line.Holds (l : Line Rat) (y : Nat → Rat) : Prop := form l.cells y = l.rhs

/-- Whether an assignment satisfies all equations. -/
def Solves (lines : List (Line Rat)) (y : Nat → Rat) : Prop := ∀ l ∈ lines, l.Holds y

/-- Equations over `n` columns, each solved for a column that no other one has. -/
structure Canonical (n : Nat) (lines : List (Line Rat)) : Prop where
  width : ∀ l ∈ lines, l.cells.length = n
  basic_lt : ∀ l ∈ lines, l.basic < n
  unit : ∀ (i k : Nat) (a b : Line Rat), lines[i]? = some a → lines[k]? = some b →
    a.coeff b.basic = if i = k then 1 else 0

/-- A cost line for an objective: zero on the basic columns, and off by the right side on
every solution. -/
structure Cost.Prices (n : Nat) (lines : List (Line Rat)) (objective : (Nat → Rat) → Rat)
    (c : Cost Rat) : Prop where
  width : c.cells.length = n
  reduced : ∀ l ∈ lines, c.coeff l.basic = 0
  value : ∀ y, Solves lines y → form c.cells y - c.rhs = objective y

/-- A canonical tableau with given solutions and a given objective. -/
structure Tableau.Represents (n : Nat) (solutions : (Nat → Rat) → Prop)
    (objective : (Nat → Rat) → Rat) (t : Tableau Rat) : Prop where
  canonical : Canonical n t.lines
  prices : t.cost.Prices n t.lines objective
  solves : ∀ y, Solves t.lines y ↔ solutions y

/-- An assignment solves lines if it solves the line at every place. -/
theorem solves_iff_getElem? {lines : List (Line Rat)} {y : Nat → Rat} :
    Solves lines y ↔ ∀ (i : Nat) (l : Line Rat), lines[i]? = some l → l.Holds y := by
  constructor
  · intro h i l hl
    exact h l (List.mem_of_getElem? hl)
  · intro h l hl
    obtain ⟨i, hi⟩ := List.mem_iff_getElem?.mp hl
    exact h i l hi

/-! ## One line -/

section
variable (a l : Line Rat) (c : Cost Rat) (column j : Nat)

theorem coeff_normalize : (l.normalize column).coeff j = l.coeff j / l.coeff column :=
  getD_map_of_zero (f := fun v => v / l.coeff column) (zero_div _) l.cells j

theorem length_normalize : (l.normalize column).cells.length = l.cells.length :=
  List.length_map _

theorem holds_normalize (h : l.coeff column ≠ 0) (y : Nat → Rat) :
    (l.normalize column).Holds y ↔ l.Holds y := by
  have hform : form (l.normalize column).cells y = (l.coeff column)⁻¹ * form l.cells y :=
    form_map_mul _ _ _ fun v => by rw [div_eq_inv_mul]
  have hrhs : (l.normalize column).rhs = (l.coeff column)⁻¹ * l.rhs := div_eq_inv_mul _ _
  rw [Line.Holds, hform, hrhs, mul_right_inj' (inv_ne_zero h)]
  rfl

/-- Elimination keeps the column a line is solved for. -/
@[simp] theorem basic_eliminate : (a.eliminate column l).basic = l.basic := by
  simp only [Line.eliminate]
  split <;> rfl

/-- The guard of an elimination skips a zero factor only, which would change nothing. -/
theorem rhs_eliminate : (a.eliminate column l).rhs = l.rhs - l.coeff column * a.rhs := by
  simp only [Line.eliminate]
  split
  next => rfl
  next h =>
    have hzero : l.coeff column = 0 := by simpa using h
    rw [hzero, zero_mul, sub_zero]

theorem length_eliminate (h : l.cells.length = a.cells.length) :
    (a.eliminate column l).cells.length = l.cells.length := by
  simp only [Line.eliminate]
  split
  next =>
    show (List.zipWith _ l.cells a.cells).length = _
    rw [List.length_zipWith, ← h, min_self]
  next => rfl

/-- Elimination takes off a multiple of the pivot line, in every column. -/
theorem coeff_eliminate (h : l.cells.length = a.cells.length) :
    (a.eliminate column l).coeff j = l.coeff j - l.coeff column * a.coeff j := by
  simp only [Line.eliminate]
  split
  next => exact getD_zipWith_of_zero (by ring) h j
  next hzero =>
    have hzero : l.coeff column = 0 := by simpa using hzero
    rw [hzero, zero_mul, sub_zero]

theorem form_eliminate (h : l.cells.length = a.cells.length) (y : Nat → Rat) :
    form (a.eliminate column l).cells y = form l.cells y - l.coeff column * form a.cells y := by
  simp only [Line.eliminate]
  split
  next => exact form_zipWith_sub y h _
  next hzero =>
    have hzero : l.coeff column = 0 := by simpa using hzero
    rw [hzero, zero_mul, sub_zero]

/-- Where the line that is taken off holds, the other one holds as before. -/
theorem holds_eliminate (h : l.cells.length = a.cells.length) {y : Nat → Rat} (ha : a.Holds y) :
    (a.eliminate column l).Holds y ↔ l.Holds y := by
  rw [Line.Holds, form_eliminate a l column h, rhs_eliminate, ha]
  exact sub_left_inj

/-- A cost line loses a column as an equation with the same entries does. -/
theorem eliminate_cost : c.eliminate a column =
    ⟨(a.eliminate column ⟨0, c.cells, c.rhs⟩).cells,
      (a.eliminate column ⟨0, c.cells, c.rhs⟩).rhs⟩ := by
  have hcoeff : (⟨0, c.cells, c.rhs⟩ : Line Rat).coeff column = c.coeff column := rfl
  simp only [Cost.eliminate, Line.eliminate, hcoeff]
  split <;> rfl

theorem coeff_eliminate_cost (h : c.cells.length = a.cells.length) :
    (c.eliminate a column).coeff j = c.coeff j - c.coeff column * a.coeff j := by
  rw [eliminate_cost]
  exact coeff_eliminate a ⟨0, c.cells, c.rhs⟩ column j h

/-- The value of a cost line, less its right side, stays the same where the line that is taken
off holds. -/
theorem value_eliminate_cost (h : c.cells.length = a.cells.length) {y : Nat → Rat}
    (ha : a.Holds y) :
    form (c.eliminate a column).cells y - (c.eliminate a column).rhs = form c.cells y - c.rhs := by
  rw [eliminate_cost]
  show form (a.eliminate column ⟨0, c.cells, c.rhs⟩).cells y -
    (a.eliminate column ⟨0, c.cells, c.rhs⟩).rhs = _
  rw [form_eliminate a ⟨0, c.cells, c.rhs⟩ column h, rhs_eliminate, ha]
  ring

theorem length_eliminate_cost (h : c.cells.length = a.cells.length) :
    (c.eliminate a column).cells.length = c.cells.length := by
  rw [eliminate_cost]
  exact length_eliminate a ⟨0, c.cells, c.rhs⟩ column h

end

/-! ## Pivots -/

/-- All lines of a tableau are of one length, a normalized one included. -/
theorem Canonical.length_normalize {n : Nat} {lines : List (Line Rat)} (hc : Canonical n lines)
    {i k : Nat} {a b : Line Rat} (ha : lines[i]? = some a) (hb : lines[k]? = some b)
    (column : Nat) : a.cells.length = (b.normalize column).cells.length := by
  rw [Simplex.length_normalize, hc.width a (List.mem_of_getElem? ha),
    hc.width b (List.mem_of_getElem? hb)]

namespace Tableau

variable {n row column : Nat} {t t' : Tableau Rat}

/-- A pivot is made wherever there is a coefficient to divide by. -/
theorem exists_pivot {line : Line Rat} (h : t.lines[row]? = some line)
    (hne : line.coeff column ≠ 0) : ∃ t', t.pivot row column = .ok t' := by
  have hbeq : (line.coeff column == 0) = false := by simpa using hne
  simp only [pivot, h, hbeq]
  exact ⟨_, rfl⟩

/-- What a pivot does to lines and cost. -/
theorem pivot_spec (h : t.pivot row column = .ok t') :
    ∃ line, t.lines[row]? = some line ∧ line.coeff column ≠ 0 ∧
      t'.cost = t.cost.eliminate (line.normalize column) column ∧
      t'.lines = t.lines.mapIdx fun i l =>
        if i = row then line.normalize column else (line.normalize column).eliminate column l := by
  simp only [pivot] at h
  split at h
  next => cases h
  next line hline =>
    split at h
    next => cases h
    next hne =>
      cases h
      exact ⟨line, hline, by simpa using hne, rfl, rfl⟩

theorem length_pivot (h : t.pivot row column = .ok t') : t'.lines.length = t.lines.length := by
  obtain ⟨line, _, _, _, hlines⟩ := pivot_spec h
  rw [hlines, List.length_mapIdx]

/-- The lines after a pivot at a given line. -/
theorem getElem?_pivot {line : Line Rat} (h : t.pivot row column = .ok t')
    (hline : t.lines[row]? = some line) {i : Nat} {a' : Line Rat} :
    t'.lines[i]? = some a' ↔
      i = row ∧ a' = line.normalize column ∨
        i ≠ row ∧ ∃ a, t.lines[i]? = some a ∧ a' = (line.normalize column).eliminate column a := by
  obtain ⟨line', hline', _, _, hlines⟩ := pivot_spec h
  cases hline.symm.trans hline'
  rw [hlines, List.getElem?_mapIdx, Option.map_eq_some_iff]
  by_cases hi : i = row
  · subst hi
    simp [hline, eq_comm]
  · simp [hi, eq_comm]

/-- The entries in the pivot column are gone but for a one in the pivot line. -/
theorem canonical_pivot (hc : Canonical n t.lines) (hcolumn : column < n)
    (h : t.pivot row column = .ok t') : Canonical n t'.lines := by
  obtain ⟨line, hline, hne, _, _⟩ := pivot_spec h
  have hp : (line.normalize column).coeff column = 1 := by
    rw [coeff_normalize, div_self hne]
  constructor
  case width =>
    intro a' ha'
    obtain ⟨i, hi⟩ := List.mem_iff_getElem?.mp ha'
    rcases (getElem?_pivot h hline).mp hi with ⟨_, rfl⟩ | ⟨_, a, ha, rfl⟩
    · rw [length_normalize]
      exact hc.width _ (List.mem_of_getElem? hline)
    · rw [length_eliminate _ _ _ (hc.length_normalize ha hline column)]
      exact hc.width _ (List.mem_of_getElem? ha)
  case basic_lt =>
    intro a' ha'
    obtain ⟨i, hi⟩ := List.mem_iff_getElem?.mp ha'
    rcases (getElem?_pivot h hline).mp hi with ⟨_, rfl⟩ | ⟨_, a, ha, rfl⟩
    · exact hcolumn
    · rw [basic_eliminate]
      exact hc.basic_lt _ (List.mem_of_getElem? ha)
  case unit =>
    intro i k a' b' hi hk
    rcases (getElem?_pivot h hline).mp hk with ⟨rfl, rfl⟩ | ⟨hkr, b, hb, rfl⟩
    · -- the column that enters: one in its own line, eliminated from the others
      show a'.coeff column = _
      rcases (getElem?_pivot h hline).mp hi with ⟨rfl, rfl⟩ | ⟨hir, a, ha, rfl⟩
      · rw [hp, if_pos rfl]
      · rw [coeff_eliminate _ _ _ _ (hc.length_normalize ha hline column), hp, if_neg hir]
        ring
    · -- a column that stays basic is not in the pivot line, so nothing of it moves
      have hzero : (line.normalize column).coeff b.basic = 0 := by
        rw [coeff_normalize, hc.unit row k line b hline hb, if_neg (Ne.symm hkr), zero_div]
      rw [basic_eliminate]
      rcases (getElem?_pivot h hline).mp hi with ⟨rfl, rfl⟩ | ⟨hir, a, ha, rfl⟩
      · rw [hzero, if_neg (Ne.symm hkr)]
      · rw [coeff_eliminate _ _ _ _ (hc.length_normalize ha hline column), hzero, mul_zero,
          sub_zero]
        exact hc.unit i k a b ha hb

/-- A pivot adds multiples of one equation to others, which keeps the solutions. -/
theorem solves_pivot (hc : Canonical n t.lines) (h : t.pivot row column = .ok t')
    (y : Nat → Rat) : Solves t'.lines y ↔ Solves t.lines y := by
  obtain ⟨line, hline, hne, _, _⟩ := pivot_spec h
  rw [solves_iff_getElem?, solves_iff_getElem?]
  constructor
  · intro hs i a ha
    have hpivot : (line.normalize column).Holds y :=
      hs row _ ((getElem?_pivot h hline).mpr (Or.inl ⟨rfl, rfl⟩))
    -- the line of the pivot is only scaled, the others have a multiple of it taken off
    by_cases hi : i = row
    · subst hi
      cases hline.symm.trans ha
      exact (holds_normalize line column hne y).mp hpivot
    · exact (holds_eliminate _ a column (hc.length_normalize ha hline column) hpivot).mp
        (hs i _ ((getElem?_pivot h hline).mpr (Or.inr ⟨hi, a, ha, rfl⟩)))
  · intro hs i a' ha'
    have hpivot : (line.normalize column).Holds y :=
      (holds_normalize line column hne y).mpr (hs row line hline)
    rcases (getElem?_pivot h hline).mp ha' with ⟨_, rfl⟩ | ⟨_, a, ha, rfl⟩
    · exact hpivot
    · exact (holds_eliminate _ a column (hc.length_normalize ha hline column) hpivot).mpr
        (hs i a ha)

/-- A pivot keeps the prices. -/
theorem prices_pivot {f : (Nat → Rat) → Rat} (hc : Canonical n t.lines)
    (hp : t.cost.Prices n t.lines f) (h : t.pivot row column = .ok t') :
    t'.cost.Prices n t'.lines f := by
  obtain ⟨line, hline, hne, hcost, _⟩ := pivot_spec h
  have hlen : t.cost.cells.length = (line.normalize column).cells.length := by
    rw [length_normalize, hp.width, hc.width _ (List.mem_of_getElem? hline)]
  rw [hcost]
  constructor
  case width => rw [length_eliminate_cost _ _ _ hlen, hp.width]
  case reduced =>
    intro b' hb'
    obtain ⟨k, hk⟩ := List.mem_iff_getElem?.mp hb'
    rw [coeff_eliminate_cost _ _ _ _ hlen]
    rcases (getElem?_pivot h hline).mp hk with ⟨rfl, rfl⟩ | ⟨hkr, b, hb, rfl⟩
    -- the cost of the column that enters is taken off completely
    · show t.cost.coeff column - t.cost.coeff column * (line.normalize column).coeff column = 0
      rw [coeff_normalize, div_self hne, mul_one, sub_self]
    · rw [basic_eliminate, hp.reduced b (List.mem_of_getElem? hb), coeff_normalize,
        hc.unit row k line b hline hb, if_neg (Ne.symm hkr), zero_div, mul_zero, sub_zero]
  case value =>
    intro y hy
    have hy := (solves_pivot hc h y).mp hy
    have hpivot : (line.normalize column).Holds y :=
      (holds_normalize line column hne y).mpr (hy line (List.mem_of_getElem? hline))
    rw [value_eliminate_cost _ _ _ hlen hpivot]
    exact hp.value y hy

/-- A pivot keeps what a tableau represents. -/
theorem represents_pivot {P : (Nat → Rat) → Prop} {f : (Nat → Rat) → Rat}
    (ht : t.Represents n P f) (hcolumn : column < n) (h : t.pivot row column = .ok t') :
    t'.Represents n P f where
  canonical := canonical_pivot ht.canonical hcolumn h
  prices := prices_pivot ht.canonical ht.prices h
  solves y := (solves_pivot ht.canonical h y).trans (ht.solves y)

end Tableau

/-! ## Basic columns -/

section
variable {n : Nat} {lines : List (Line Rat)}

theorem Canonical.nil : Canonical n [] := by
  constructor
  case width =>
    intro l hl
    cases hl
  case basic_lt =>
    intro l hl
    cases hl
  case unit =>
    intro i k a b ha
    cases ha

/-- A line may be added if it and the others do not see each other's basic columns. -/
theorem Canonical.cons (hc : Canonical n lines) {a : Line Rat} (hwidth : a.cells.length = n)
    (hbasic : a.basic < n) (hone : a.coeff a.basic = 1) (hrow : ∀ b ∈ lines, a.coeff b.basic = 0)
    (hcolumn : ∀ b ∈ lines, b.coeff a.basic = 0) : Canonical n (a :: lines) := by
  constructor
  case width => exact List.forall_mem_cons.mpr ⟨hwidth, hc.width⟩
  case basic_lt => exact List.forall_mem_cons.mpr ⟨hbasic, hc.basic_lt⟩
  case unit =>
    intro i k b b' hb hb'
    cases i with
    | zero =>
      cases hb
      cases k with
      | zero =>
        cases hb'
        rw [hone, if_pos rfl]
      | succ k => rw [hrow b' (List.mem_of_getElem? hb'), if_neg (by omega)]
    | succ i =>
      cases k with
      | zero =>
        cases hb'
        rw [hcolumn b (List.mem_of_getElem? hb), if_neg (by omega)]
      | succ k =>
        rw [hc.unit i k b b' hb hb']
        simp

/-- The rest of the lines is in canonical form, and the first one does not see their basic columns.
-/
theorem Canonical.of_cons {a : Line Rat} (hc : Canonical n (a :: lines)) :
    Canonical n lines ∧ ∀ b ∈ lines, a.coeff b.basic = 0 := by
  constructor
  · constructor
    case width => exact fun b hb => hc.width b (List.mem_cons_of_mem _ hb)
    case basic_lt => exact fun b hb => hc.basic_lt b (List.mem_cons_of_mem _ hb)
    case unit =>
      intro i k b b' hb hb'
      rw [hc.unit (i + 1) (k + 1) b b' hb hb']
      simp
  · intro b hb
    obtain ⟨k, hk⟩ := List.mem_iff_getElem?.mp hb
    rw [hc.unit 0 (k + 1) a b rfl hk, if_neg (by omega)]

theorem Canonical.coeff_basic (hc : Canonical n lines) {a : Line Rat} (ha : a ∈ lines) :
    a.coeff a.basic = 1 := by
  obtain ⟨i, hi⟩ := List.mem_iff_getElem?.mp ha
  rw [hc.unit i i a a hi hi, if_pos rfl]

/-- Only the line itself sees its basic column. -/
theorem Canonical.eq_of_coeff_ne_zero (hc : Canonical n lines) {a b : Line Rat} (ha : a ∈ lines)
    (hb : b ∈ lines) (h : a.coeff b.basic ≠ 0) : a = b := by
  obtain ⟨i, hi⟩ := List.mem_iff_getElem?.mp ha
  obtain ⟨k, hk⟩ := List.mem_iff_getElem?.mp hb
  rw [hc.unit i k a b hi hk, ne_eq, ite_eq_right_iff, not_forall] at h
  obtain ⟨rfl, _⟩ := h
  exact Option.some.inj (hi.symm.trans hk)

theorem Canonical.eq_of_basic_eq (hc : Canonical n lines) {a b : Line Rat} (ha : a ∈ lines)
    (hb : b ∈ lines) (h : a.basic = b.basic) : a = b := by
  refine hc.eq_of_coeff_ne_zero ha hb ?_
  rw [← h, hc.coeff_basic ha]
  exact one_ne_zero

end

end GoalBudget.Simplex
