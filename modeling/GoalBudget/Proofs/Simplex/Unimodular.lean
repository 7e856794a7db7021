import GoalBudget.Proofs.Simplex.Basis
import GoalBudget.Proofs.Simplex.Visits

/-!
# Unimodular tableaus

Take the columns of a program as roads that lead up, each from a foot by the amount that an
assignment has in the column. The rows are a network if for every assignment the feet can be chosen
such that each row describes a path: the roads, forwards or backwards as the coefficients say, lead
from one height to another, so whatever is measured along them adds up to a difference between the
two ends (`Leads`, `IsNetwork`).

Slack and artificial columns close the paths (`cuttable_firstLines`). It can then be measured which
roads pass a given height, and this turns a solution of the homogeneous equations into another one
that has only the amounts -1, 0 and 1, and is zero where the first one is zero
(`Cuttable.exists_cut`). The entries of a canonical tableau are amounts of such solutions
(`Canonical.isSign_coeff`). So the program of a network has no other entries than -1, 0 and 1,
whichever pivots are made (`Visits.isSign_coeff`).

Determinants do not occur. What is kept from tableau to tableau is the set of solutions, and that a
solution can be cut is a property of this set; the entries are looked at in the end only. To read
off an entry, the cut is made just below the upper end of the column that the entry is about.
-/

namespace GoalBudget

/-- Minus one, zero or one. -/
def IsSign (c : Rat) : Prop := c = -1 ∨ c = 0 ∨ c = 1

/-- What a measure gains along a column that leads up from its foot by its amount. -/
def climb (f : Rat → Rat) (foot y : Nat → Rat) (j : Nat) : Rat := f (foot j + y j) - f (foot j)

/-- Whether the columns, taken as the coefficients say, lead from one height to another. -/
def Leads (coeffs : List Rat) (foot y : Nat → Rat) (bottom top : Rat) : Prop :=
  ∀ f : Rat → Rat, form coeffs (climb f foot y) = f top - f bottom

/-- Whether columns can always be placed such that every row leads from some height to some
other one. -/
def IsNetwork (rows : List (Row Rat)) : Prop :=
  ∀ y : Nat → Rat, ∃ foot, ∀ r ∈ rows, ∃ bottom top, Leads r.coeffs foot y bottom top

section
variable {f : Rat → Rat} {foot foot' y : Nat → Rat} {coeffs : List Rat} {bottom top : Rat}
  {j : Nat}

/-- A column without an amount measures nothing. -/
theorem climb_eq_zero (h : y j = 0) : climb f foot y j = 0 := by
  rw [climb, h, add_zero, sub_self]

theorem climb_congr (h : foot j = foot' j) : climb f foot y j = climb f foot' y j := by
  rw [climb, climb, h]

theorem Leads.form_eq (h : Leads coeffs foot y bottom top) : form coeffs y = top - bottom := by
  have hclimb : climb id foot y = y := funext fun j => add_sub_cancel_left (foot j) (y j)
  have hid := h id
  rwa [hclimb] at hid

theorem Leads.congr (h : Leads coeffs foot y bottom top)
    (hfoot : ∀ j < coeffs.length, foot j = foot' j) : Leads coeffs foot' y bottom top := by
  intro f
  rw [← h f]
  exact form_congr _ fun j hj => (climb_congr (hfoot j hj)).symm

theorem Leads.neg (h : Leads coeffs foot y bottom top) :
    Leads (coeffs.map (-·)) foot y top bottom := by
  intro f
  rw [form_map_mul _ _ (-1) fun c => (neg_one_mul c).symm, h f]
  ring

/-- One column leads from its foot up. -/
theorem leads_unit {n : Nat} (hj : j < n) :
    Leads ((List.replicate n 0).set j 1) foot y (foot j) (foot j + y j) :=
  fun f => form_unit (climb f foot y) hj

end

namespace Simplex

/-- Whether every solution of the homogeneous equations can be placed such that what any measure
gains along the columns is a solution, too. -/
def Cuttable (lines : List (Line Rat)) : Prop :=
  ∀ y : Nat → Rat, (∀ l ∈ lines, form l.cells y = 0) →
    ∃ foot, ∀ f : Rat → Rat, ∀ l ∈ lines, form l.cells (climb f foot y) = 0

/-! ## The lines of a network -/

section
variable {l : Layout} {slack artificial : Nat} {rows : List (Row Rat)} {foot y : Nat → Rat}

/-- Where the slack column of a row starts: an "at most" goes back from the top of the row, an
"at least" from its bottom. -/
def slackFoot (r : Row Rat) (bottom top : Rat) : Rat :=
  if r.relation = .atLeast then bottom else top

/-- The columns that a row takes placed where the row ends. -/
def place (slack artificial : Nat) (r : Row Rat) (bottom top : Rat) (foot : Nat → Rat) (j : Nat) :
    Rat :=
  if slackUse r = 1 ∧ j = slack then slackFoot r bottom top
  else if artificialUse r = 1 ∧ j = artificial then top
  else foot j

/-- With its slack and artificial columns a row leads back to where it started. -/
theorem firstLine_closes {r : Row Rat} {rest : List (Row Rat)} {bottom top : Rat}
    (h : Room l slack artificial (r :: rest)) (hr : r.coeffs.length = l.own)
    (hleads : Leads r.coeffs foot y bottom top)
    (hslack : r.relation ≠ .equal → foot slack = slackFoot r bottom top)
    (hartificial : r.relation ≠ .atMost → foot artificial = top)
    (hy : form (firstLine l slack artificial r).cells y = 0) (f : Rat → Rat) :
    form (firstLine l slack artificial r).cells (climb f foot y) = 0 := by
  rw [form_firstLine h hr, hleads.form_eq, slackSign, artificialUse] at hy
  rw [form_firstLine h hr, hleads f, slackSign, artificialUse]
  rw [slackFoot] at hslack
  cases hrel : r.relation with
  | atMost =>
    simp only [hrel, reduceIte, reduceCtorEq, ne_eq, not_false_eq_true, forall_const, Nat.cast_zero,
      zero_mul, one_mul, add_zero] at hy hslack ⊢
    have hend : top + y slack = bottom := by linarith
    rw [climb, hslack, hend]
    ring
  | atLeast =>
    simp only [hrel, reduceIte, reduceCtorEq, ne_eq, not_false_eq_true, forall_const, Nat.cast_one,
      neg_one_mul, one_mul] at hy hslack hartificial ⊢
    -- slack and artificial column end at the same height
    have hend : top + y artificial = bottom + y slack := by linarith
    rw [climb, climb, hslack, hartificial, hend]
    ring
  | equal =>
    simp only [hrel, reduceIte, reduceCtorEq, ne_eq, not_false_eq_true, forall_const, Nat.cast_one,
      zero_mul, one_mul, add_zero] at hy hartificial ⊢
    have hend : top + y artificial = bottom := by linarith
    rw [climb, hartificial, hend]
    ring

/-- The feet of the columns that rows take can be chosen row by row. -/
theorem exists_feet (h : Room l slack artificial rows)
    (hrows : ∀ r ∈ rows, r.coeffs.length = l.own)
    (hleads : ∀ r ∈ rows, ∃ bottom top, Leads r.coeffs foot y bottom top)
    (hy : ∀ a ∈ firstLines l slack artificial rows, form a.cells y = 0) :
    ∃ feet : Nat → Rat,
      (∀ j, j < slack ∨ l.artificialStart ≤ j ∧ j < artificial → feet j = foot j) ∧
        ∀ f : Rat → Rat, ∀ a ∈ firstLines l slack artificial rows,
          form a.cells (climb f feet y) = 0 := by
  induction rows generalizing slack artificial foot with
  | nil => exact ⟨foot, fun _ _ => rfl, fun _ a ha => by cases ha⟩
  | cons r rest ih =>
    obtain ⟨hr, hrest⟩ := List.forall_mem_cons.mp hrows
    obtain ⟨⟨bottom, top, hhead⟩, htail⟩ := List.forall_mem_cons.mp hleads
    rw [firstLines_cons, List.forall_mem_cons] at hy
    obtain ⟨hslackLe, _⟩ := h.head_le
    have hown := h.own_le
    have hstart := h.start_le
    have hbehind := l.own_le
    -- a slack column that is taken lies in front of all artificial ones
    have hkept (j : Nat) (hj : j < slack ∨ l.artificialStart ≤ j ∧ j < artificial) :
        place slack artificial r bottom top foot j = foot j := by
      rw [place, if_neg (by omega), if_neg (by omega)]
    have hplaced : ∀ r' ∈ rest, ∃ bottom' top',
        Leads r'.coeffs (place slack artificial r bottom top foot) y bottom' top' := by
      intro r' hr'
      obtain ⟨bottom', top', hleads'⟩ := htail r' hr'
      refine ⟨bottom', top', hleads'.congr fun j hj => ?_⟩
      rw [hrest r' hr'] at hj
      exact (hkept j (by omega)).symm
    obtain ⟨feet, hsame, hcloses⟩ := ih h.next hrest hplaced hy.2
    have hhead : Leads r.coeffs feet y bottom top := hhead.congr fun j hj => by
      rw [hr] at hj
      rw [hsame j (by omega), hkept j (by omega)]
    refine ⟨feet, fun j hj => ?_, fun f => ?_⟩
    · rw [hsame j (by omega), hkept j hj]
    · rw [firstLines_cons, List.forall_mem_cons]
      refine ⟨firstLine_closes h hr hhead (fun hrel => ?_) (fun hrel => ?_) hy.1 f, hcloses f⟩
      · have huse : slackUse r = 1 := if_neg hrel
        rw [hsame slack (by omega), place, if_pos ⟨huse, rfl⟩]
      · have huse : artificialUse r = 1 := if_neg hrel
        rw [hsame artificial (by omega), place, if_neg (by omega), if_pos ⟨huse, rfl⟩]

/-- The first lines of a network can be cut. -/
theorem cuttable_firstLines (h : Room l slack artificial rows)
    (hrows : ∀ r ∈ rows, r.coeffs.length = l.own) (hnetwork : IsNetwork rows) :
    Cuttable (firstLines l slack artificial rows) := by
  intro y hy
  obtain ⟨foot, hfoot⟩ := hnetwork y
  obtain ⟨feet, _, hcloses⟩ := exists_feet h hrows hfoot hy
  exact ⟨feet, hcloses⟩

end

/-- Moved, turned and with rows for upper bounds a network stays one. -/
theorem isNetwork_standardRows {p : Program Rat} (hp : IsNetwork p.rows) :
    IsNetwork (standardRows p) := by
  intro y
  have hturn {r : Row Rat} {foot : Nat → Rat} {bottom top : Rat}
      (h : Leads r.coeffs foot y bottom top) :
      ∃ bottom top, Leads (orient r).coeffs foot y bottom top := by
    unfold orient
    split
    next => exact ⟨_, _, h.neg⟩
    next => exact ⟨_, _, h⟩
  obtain ⟨foot, hfoot⟩ := hp y
  refine ⟨foot, fun r hr => ?_⟩
  rcases mem_standardRows.mp hr with ⟨row, hrow, rfl⟩ | ⟨j, c, row, hc, hbound, rfl⟩
  · obtain ⟨bottom, top, hleads⟩ := hfoot row hrow
    exact hturn (r := shiftRow _ row) hleads
  · obtain ⟨bound, _, rfl⟩ := Option.map_eq_some_iff.mp hbound
    exact hturn (leads_unit (List.getElem?_eq_some_iff.mp hc).1)

/-! ## Entries -/

section
variable {n j : Nat} {lines : List (Line Rat)}

/-- A solution cut through a column: what passes a height just below the upper end of the column
is a solution again. -/
theorem Cuttable.exists_cut (h : Cuttable lines) {y : Nat → Rat}
    (hy : ∀ l ∈ lines, form l.cells y = 0) (hj : y j = 1) :
    ∃ z : Nat → Rat, (∀ l ∈ lines, form l.cells z = 0) ∧ z j = 1 ∧ (∀ k, IsSign (z k)) ∧
      ∀ k, y k = 0 → z k = 0 := by
  obtain ⟨foot, hfoot⟩ := h y hy
  -- of the two ends of the column only the upper one has passed
  let passed : Rat → Rat := fun v => if foot j + 1 ≤ v then 1 else 0
  have hpassed (v : Rat) : passed v = 0 ∨ passed v = 1 := by
    by_cases hv : foot j + 1 ≤ v
    · exact .inr (if_pos hv)
    · exact .inl (if_neg hv)
  refine ⟨climb passed foot y, hfoot passed, ?_, fun k => ?_, fun k => climb_eq_zero⟩
  · have hupper : passed (foot j + 1) = 1 := if_pos (le_refl _)
    have hlower : passed (foot j) = 0 := if_neg (by linarith)
    rw [climb, hj, hupper, hlower, sub_zero]
  · rw [climb]
    rcases hpassed (foot k + y k) with hend | hend <;>
      rcases hpassed (foot k) with hstart | hstart <;>
      simp [hend, hstart, IsSign]

variable {t : Tableau Rat} (hc : Canonical n t.lines)
  (hsame : ∀ y, Solves t.lines y ↔ Solves lines y)

include hc hsame

/-- An entry is what the basic column of its line gives way when its own column takes one. -/
theorem Canonical.coeff_eq_neg (hj : j ∉ basics t.lines) {z : Nat → Rat}
    (hz : ∀ l ∈ lines, form l.cells z = 0) (hone : z j = 1)
    (hzero : ∀ k, k ∉ basics t.lines → k ≠ j → z k = 0) {a : Line Rat} (ha : a ∈ t.lines) :
    a.coeff j = -z a.basic := by
  have hvertex := (hsame _).mp (Tableau.solves_vertex hc)
  have hmoved : Solves t.lines fun k => t.vertex n k - z k := by
    refine (hsame _).mpr fun l hl => ?_
    rw [Line.Holds, form_sub, hz l hl, hvertex l hl, sub_zero]
  have hoff (k : Nat) (hk : k ∉ basics t.lines) (hkj : k ≠ j) : t.vertex n k - z k = 0 := by
    rw [hzero k hk hkj, Tableau.vertex_nonbasic (not_mem_basics.mp hk), sub_zero]
  have hholds : form a.cells (fun k => t.vertex n k - z k) = a.rhs := hmoved a ha
  rw [hc.form_eq ha hj hoff, Tableau.vertex_basic hc ha,
    Tableau.vertex_nonbasic (not_mem_basics.mp hj), hone] at hholds
  linarith

/-- A tableau in canonical form whose solutions can be cut has only signs as entries. -/
theorem Canonical.isSign_coeff (hcut : Cuttable lines) {a : Line Rat} (ha : a ∈ t.lines)
    (j : Nat) : IsSign (a.coeff j) := by
  by_cases hj : j ∈ basics t.lines
  · rw [hc.coeff_of_mem_basics ha hj]
    split
    next => exact .inr (.inr rfl)
    next => exact .inr (.inl rfl)
  · -- the way from the vertex along a ray of the column, cut through the column
    have hvertex := (hsame _).mp (Tableau.solves_vertex hc)
    have hray : Solves lines (t.ray n j 1) :=
      (hsame _).mp (Tableau.solves_ray hc (not_mem_basics.mp hj))
    have hway : ∀ l ∈ lines, form l.cells (fun k => t.ray n j 1 k - t.vertex n k) = 0 := by
      intro l hl
      rw [form_sub, hray l hl, hvertex l hl, sub_self]
    have hone : t.ray n j 1 j - t.vertex n j = 1 := by
      rw [Tableau.ray_column, Tableau.vertex_nonbasic (not_mem_basics.mp hj), sub_zero]
    obtain ⟨z, hz, hzone, hsign, hzero⟩ := hcut.exists_cut hway hone
    have hoff (k : Nat) (hk : k ∉ basics t.lines) (hkj : k ≠ j) : z k = 0 := by
      refine hzero k ?_
      rw [Tableau.ray_nonbasic hk hkj, Tableau.vertex_nonbasic (not_mem_basics.mp hk), sub_self]
    rw [hc.coeff_eq_neg hsame hj hz hzone hoff ha]
    rcases hsign a.basic with h | h | h
    · exact .inr (.inr (by rw [h, neg_neg]))
    · exact .inr (.inl (by rw [h, neg_zero]))
    · exact .inl (by rw [h])

end

variable {s : Simplex Rat} {t : Tableau Rat}

/-- The first tableau is in canonical form. -/
theorem canonical_firstStart (hp : s.program.Continuous) :
    Canonical (layoutOf s.program).width s.firstStart.lines :=
  canonical_firstLines (room_layout _ _) fun _ hr => length_standardRows hp hr

/-- The first tableau of a network can be cut. -/
theorem cuttable_firstStart (hp : s.program.Continuous) (hnetwork : IsNetwork s.program.rows) :
    Cuttable s.firstStart.lines :=
  cuttable_firstLines (room_layout _ _) (fun _ hr => length_standardRows hp hr)
    (isNetwork_standardRows hnetwork)

/-- In a run of the program of a network every entry of a line is a sign. -/
theorem Visits.isSign_coeff (hp : s.program.Continuous) (hnetwork : IsNetwork s.program.rows)
    (h : s.Visits t) {a : Line Rat} (ha : a ∈ t.lines) (j : Nat) : IsSign (a.coeff j) := by
  obtain ⟨hc, hsame⟩ := h.reaches.canonical (canonical_firstStart hp)
  exact hc.isSign_coeff hsame (cuttable_firstStart hp hnetwork) ha j

end Simplex

end GoalBudget
