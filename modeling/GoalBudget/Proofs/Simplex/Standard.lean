import GoalBudget.Proofs.Simplex.Linear
import GoalBudget.Simplex.Standard

/-!
# The standard form of a program

A point of a program is given by its distances from the lower bounds. It is feasible exactly when no
distance is negative and the distances satisfy the rows of the standard form (`feasible_iff`):
moving the lower bounds to zero takes the same amount off both sides of a row (`holdsAt_shiftRow`),
a finite upper bound is one of the rows (`holdsAt_boundRow`), and a row that is turned says what it
said before (`holdsAt_orient`).

The objective at a point is the form at its distances and a base, the value where every column is at
its lower bound (`value_eq`). The base is the same for all points, so it does not matter which of
two is better (`asGood_iff`).

Distances and points correspond as long as a point has a value for every column: `distance` goes one
way and `pointAt` the other.
-/

namespace GoalBudget

/-! ## Relations -/

/-- Whether an assignment satisfies a row. -/
def Row.HoldsAt (r : Row Rat) (y : Nat → Rat) : Prop := r.relation.Holds (form r.coeffs y) r.rhs

theorem Relation.holds_sub (r : Relation) (a b c : Rat) :
    r.Holds (a - c) (b - c) ↔ r.Holds a b := by
  cases r with
  | atMost => exact sub_le_sub_iff_right c
  | atLeast => exact sub_le_sub_iff_right c
  | equal => exact sub_left_inj

/-- A relation turned, between turned sides, says the same. -/
theorem Relation.holds_flip (r : Relation) (a b : Rat) : r.flip.Holds (-a) (-b) ↔ r.Holds a b := by
  cases r with
  | atMost => exact neg_le_neg_iff
  | atLeast => exact neg_le_neg_iff
  | equal => exact neg_inj

/-! ## Programs and their points -/

namespace Program

/-- A program with one coefficient per column everywhere and no column of whole numbers. -/
structure Continuous (p : Program Rat) : Prop where
  objective : p.objective.length = p.size
  rows : ∀ r ∈ p.rows, r.coeffs.length = p.size
  columns : ∀ c ∈ p.columns, c.integral = false

variable (p : Program Rat)

/-- How far a point lies above the lower bounds. -/
def distance (point : List Rat) (j : Nat) : Rat :=
  point.getD j 0 - (p.columns.map (·.lower)).getD j 0

/-- The point at given distances from the lower bounds. -/
def pointAt (d : Nat → Rat) : List Rat := p.columns.mapIdx fun j c => c.lower + d j

theorem length_pointAt (d : Nat → Rat) : (p.pointAt d).length = p.size := List.length_mapIdx

/-- The distance of a value from the lower bound of its column. -/
theorem distance_eq {point : List Rat} {j : Nat} {c : Column Rat} {x : Rat}
    (hc : p.columns[j]? = some c) (hx : point[j]? = some x) : p.distance point j = x - c.lower := by
  rw [distance, List.getD_eq_getElem?_getD, List.getD_eq_getElem?_getD, List.getElem?_map, hc, hx]
  rfl

/-- The value at a distance from the lower bound. -/
theorem getElem?_pointAt (d : Nat → Rat) {j : Nat} {c : Column Rat} (hc : p.columns[j]? = some c) :
    (p.pointAt d)[j]? = some (c.lower + d j) := by
  rw [pointAt, List.getElem?_mapIdx, hc]
  rfl

/-- The point at some distances has these distances. -/
theorem distance_pointAt (d : Nat → Rat) {j : Nat} (hj : j < p.size) :
    p.distance (p.pointAt d) j = d j := by
  obtain ⟨c, hc⟩ : ∃ c, p.columns[j]? = some c := ⟨_, List.getElem?_eq_getElem hj⟩
  rw [p.distance_eq hc (p.getElem?_pointAt d hc)]
  ring

/-- A form at the distances is the form at the point, less that at the lower bounds. -/
theorem form_distance (coeffs point : List Rat) :
    form coeffs (p.distance point) = dot coeffs point - dot coeffs (p.columns.map (·.lower)) := by
  rw [dot_eq_form, dot_eq_form, ← form_sub]
  rfl

/-- The objective where every column is at its lower bound. -/
def base : Rat := dot p.objective (p.columns.map (·.lower))

theorem value_eq (point : List Rat) :
    p.value point = form p.objective (p.distance point) + p.base := by
  rw [form_distance, value, base]
  ring

theorem value_pointAt (hp : p.Continuous) (d : Nat → Rat) :
    p.value (p.pointAt d) = form p.objective d + p.base := by
  rw [value_eq]
  congr 1
  refine form_congr _ ?_
  intro j hj
  exact p.distance_pointAt d (by rwa [hp.objective] at hj)

/-- The sign that turns the sense of the objective into "as small as possible". -/
def sign : Rat := if p.maximize then -1 else 1

/-- Whatever the sense, the better of two values is the lesser after a turn of sign. -/
theorem asGood_iff (a b : Rat) : p.AsGood a b ↔ p.sign * a ≤ p.sign * b := by
  rw [AsGood, sign]
  cases p.maximize with
  | true =>
    show b ≤ a ↔ -1 * a ≤ -1 * b
    rw [neg_one_mul, neg_one_mul, neg_le_neg_iff]
  | false =>
    show a ≤ b ↔ 1 * a ≤ 1 * b
    rw [one_mul, one_mul]

end Program

namespace Simplex

/-- A row moved to the lower bounds holds at the distances if the row holds at the point. -/
theorem holdsAt_shiftRow (p : Program Rat) (r : Row Rat) (point : List Rat) :
    (shiftRow (p.columns.map (·.lower)) r).HoldsAt (p.distance point) ↔ r.Holds point := by
  rw [Row.HoldsAt, shiftRow, p.form_distance]
  exact Relation.holds_sub _ _ _ _

/-- Turning a row changes nothing. -/
theorem holdsAt_orient (r : Row Rat) (y : Nat → Rat) : (orient r).HoldsAt y ↔ r.HoldsAt y := by
  unfold orient
  split
  next =>
    rw [Row.HoldsAt, form_map_mul _ _ (-1) fun c => (neg_one_mul c).symm, neg_one_mul]
    exact Relation.holds_flip _ _ _
  next => rfl

theorem rhs_orient_nonneg (r : Row Rat) : 0 ≤ (orient r).rhs := by
  unfold orient
  split
  next h => exact neg_nonneg.mpr (le_of_lt h)
  next h => exact not_lt.mp h

theorem length_orient (r : Row Rat) : (orient r).coeffs.length = r.coeffs.length := by
  unfold orient
  split
  next => exact List.length_map _
  next => rfl

/-- The row for an upper bound asks what the bound asks. -/
theorem holdsAt_boundRow {n j : Nat} (hj : j < n) (c : Column Rat) {y : Nat → Rat} {x : Rat}
    (hy : y j = x - c.lower) :
    (∀ r, boundRow n (c, j) = some r → r.HoldsAt y) ↔ c.upper.Allows x := by
  rw [boundRow]
  cases c.upper with
  | endless => simp [Limit.finite?, Limit.Allows]
  | upTo bound =>
    have hform : form ((List.replicate n 0).set j 1) y = y j := form_unit y hj
    have hfinite : (Limit.upTo bound).finite? = some bound := rfl
    show (∀ r, Option.map _ (Limit.upTo bound).finite? = some r → _) ↔ x ≤ bound
    rw [hfinite, Option.map_some]
    constructor
    · intro h
      have hle : form _ y ≤ bound - c.lower := h _ rfl
      rw [hform, hy] at hle
      linarith
    · intro h r hr
      cases hr
      show form _ y ≤ bound - c.lower
      rw [hform, hy]
      linarith

/-- A column allows a value when the distance is not negative and the row for its upper bound
holds. -/
theorem allows_iff {n j : Nat} (hj : j < n) {c : Column Rat} (hc : c.integral = false)
    {y : Nat → Rat} {x : Rat} (hy : y j = x - c.lower) :
    c.Allows x ↔ 0 ≤ y j ∧ ∀ r, boundRow n (c, j) = some r → r.HoldsAt y := by
  rw [holdsAt_boundRow hj c hy, hy, sub_nonneg, Column.Allows, hc]
  simp

/-- Standard rows come from the rows of the program and from finite upper bounds. -/
theorem mem_standardRows {p : Program Rat} {r : Row Rat} :
    r ∈ standardRows p ↔
      (∃ row ∈ p.rows, orient (shiftRow (p.columns.map (·.lower)) row) = r) ∨
        ∃ j c row, p.columns[j]? = some c ∧ boundRow p.size (c, j) = some row ∧
          orient row = r := by
  simp only [standardRows, List.mem_map, List.mem_append, List.mem_filterMap, Prod.exists,
    List.mem_zipIdx_iff_getElem?]
  constructor
  · rintro ⟨row, ⟨original, horiginal, rfl⟩ | ⟨c, j, hc, hrow⟩, rfl⟩
    · exact Or.inl ⟨original, horiginal, rfl⟩
    · exact Or.inr ⟨j, c, row, hc, hrow, rfl⟩
  · rintro (⟨row, hrow, rfl⟩ | ⟨j, c, row, hc, hrow, rfl⟩)
    · exact ⟨_, Or.inl ⟨row, hrow, rfl⟩, rfl⟩
    · exact ⟨row, Or.inr ⟨c, j, hc, hrow⟩, rfl⟩

theorem length_standardRows {p : Program Rat} (hp : p.Continuous) {r : Row Rat}
    (h : r ∈ standardRows p) : r.coeffs.length = p.size := by
  rcases mem_standardRows.mp h with ⟨row, hrow, rfl⟩ | ⟨j, c, row, _, hbound, rfl⟩
  · rw [length_orient]
    exact hp.rows row hrow
  · rw [length_orient]
    obtain ⟨bound, _, rfl⟩ := Option.map_eq_some_iff.mp hbound
    rw [List.length_set, List.length_replicate]

theorem rhs_standardRows {p : Program Rat} {r : Row Rat} (h : r ∈ standardRows p) :
    0 ≤ r.rhs := by
  rcases mem_standardRows.mp h with ⟨_, _, rfl⟩ | ⟨_, _, _, _, _, rfl⟩
  · exact rhs_orient_nonneg _
  · exact rhs_orient_nonneg _

/-- A point is feasible if its distances are not negative and satisfy the standard rows. -/
theorem feasible_iff {p : Program Rat} (hp : p.Continuous) {point : List Rat}
    (hlen : point.length = p.size) :
    p.Feasible point ↔ (∀ j < p.size, 0 ≤ p.distance point j) ∧
      ∀ r ∈ standardRows p, r.HoldsAt (p.distance point) := by
  -- A column allows a point exactly when its distance is not negative and keeps the bound row.
  have hcolumn (j : Nat) (c : Column Rat) (x : Rat) (hc : p.columns[j]? = some c)
      (hx : point[j]? = some x) :
      c.Allows x ↔ 0 ≤ p.distance point j ∧
        ∀ r, boundRow p.size (c, j) = some r → r.HoldsAt (p.distance point) := by
    have hj : j < p.size := (List.getElem?_eq_some_iff.mp hc).1
    exact allows_iff hj (hp.columns c (List.mem_of_getElem? hc)) (p.distance_eq hc hx)
  -- Shifting and turning a row round changes nothing about who keeps it.
  have hrow (row : Row Rat) : (orient (shiftRow (p.columns.map (·.lower)) row)).HoldsAt
      (p.distance point) ↔ row.Holds point :=
    (holdsAt_orient _ _).trans (holdsAt_shiftRow p row point)
  rw [p.feasible_iff_at]
  constructor
  · rintro ⟨_, hallows, hrows⟩
    have hdistance (j : Nat) (c : Column Rat) (hc : p.columns[j]? = some c) :
        0 ≤ p.distance point j ∧
          ∀ r, boundRow p.size (c, j) = some r → r.HoldsAt (p.distance point) := by
      have hj : j < point.length := hlen ▸ (List.getElem?_eq_some_iff.mp hc).1
      have hx := List.getElem?_eq_getElem hj
      exact (hcolumn j c _ hc hx).mp (hallows j c _ hc hx)
    constructor
    · intro j hj
      exact (hdistance j _ (List.getElem?_eq_getElem hj)).1
    · intro r hr
      rcases mem_standardRows.mp hr with ⟨row, hmem, rfl⟩ | ⟨j, c, row, hc, hbound, rfl⟩
      · exact (hrow row).mpr (hrows row hmem)
      · exact (holdsAt_orient _ _).mpr ((hdistance j c hc).2 row hbound)
  · rintro ⟨hnonneg, hrows⟩
    refine ⟨hlen, ?_, ?_⟩
    · intro j c x hc hx
      refine (hcolumn j c x hc hx).mpr ⟨hnonneg j (List.getElem?_eq_some_iff.mp hc).1, ?_⟩
      intro row hbound
      refine (holdsAt_orient _ _).mp (hrows _ (mem_standardRows.mpr (Or.inr ?_)))
      exact ⟨j, c, row, hc, hbound, rfl⟩
    · intro row hmem
      exact (hrow row).mp (hrows _ (mem_standardRows.mpr (Or.inl ⟨row, hmem, rfl⟩)))

end Simplex

end GoalBudget
