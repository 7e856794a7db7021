import GoalBudget.Proofs.Simplex.Canonical
import GoalBudget.Proofs.Simplex.Standard

/-!
# The first tableau

The lines that the first phase starts from are in canonical form: every row takes the next slack
column if it has a slack, the next artificial one if it needs one, and no later row comes back to
either (`canonical_firstLines`). Their non-negative solutions without artificial columns are the
assignments that satisfy the rows, together with the slacks that the rows leave
(`holds_iff_solution`).

The rows are gone through in order with two counters, the next free slack and the next free
artificial column. `Room` says that there are columns left for the rows to come, and is what every
induction on the rows carries along. One line is described by `firstLine`: its basic column is one
of the two it takes (`basic_firstLine`), it has no entry in any other extra column
(`coeff_firstLine_eq_zero`), and its form is that of the row with slack and artificial column added
(`form_firstLine`).

A cost line is brought into the form that a tableau wants by taking off every line at its basic
column (`prices_priceOut`). Both phases start from a cost line like that; in the first one all the
factors are one or zero (`artificialCost_eq_priceOut`).

Together: `represents_firstTableau`.
-/

namespace GoalBudget.Simplex

/-! ## One row -/

/-- How many slack columns a row takes. -/
def slackUse (r : Row Rat) : Nat := if r.relation = .equal then 0 else 1

/-- How many artificial columns a row takes. -/
def artificialUse (r : Row Rat) : Nat := if r.relation = .atMost then 0 else 1

/-- The coefficient of the slack column in the line of a row. -/
def slackSign (r : Row Rat) : Rat :=
  match r.relation with
  | .atMost => 1
  | .atLeast => -1
  | .equal => 0

/-- The line of a row, given the next slack and artificial columns. -/
def firstLine (l : Layout) (slack artificial : Nat) (r : Row Rat) : Line Rat :=
  let cells := r.coeffs ++ List.replicate (l.width - l.own) 0
  match r.relation with
  | .atMost => ⟨slack, cells.set slack 1, r.rhs⟩
  | .atLeast => ⟨artificial, (cells.set slack (-1)).set artificial 1, r.rhs⟩
  | .equal => ⟨artificial, cells.set artificial 1, r.rhs⟩

/-- The first row takes its columns, and the others go on behind them. -/
theorem firstLines_cons (l : Layout) (slack artificial : Nat) (r : Row Rat)
    (rest : List (Row Rat)) :
    firstLines l slack artificial (r :: rest) = firstLine l slack artificial r ::
      firstLines l (slack + slackUse r) (artificial + artificialUse r) rest := by
  rw [firstLines, firstLine, slackUse, artificialUse]
  cases r.relation <;> rfl

/-- The artificial columns come behind the own ones. -/
theorem Layout.own_le (l : Layout) : l.own ≤ l.artificialStart := Nat.le_add_right _ _

/-- The artificial columns come last. -/
theorem Layout.artificialStart_le (l : Layout) : l.artificialStart ≤ l.width :=
  Nat.le_add_right _ _

/-- The columns that are left for some rows: enough of both kinds, behind the own ones. -/
structure Room (l : Layout) (slack artificial : Nat) (rows : List (Row Rat)) : Prop where
  own_le : l.own ≤ slack
  slack_le : slack + (rows.map slackUse).sum ≤ l.artificialStart
  start_le : l.artificialStart ≤ artificial
  artificial_le : artificial + (rows.map artificialUse).sum ≤ l.width

section
variable {l : Layout} {slack artificial : Nat} {r : Row Rat} {rest : List (Row Rat)}

/-- A row leaves room for the rows behind it. -/
theorem Room.next (h : Room l slack artificial (r :: rest)) :
    Room l (slack + slackUse r) (artificial + artificialUse r) rest := by
  obtain ⟨hown, hslack, hstart, hartificial⟩ := h
  rw [List.map_cons, List.sum_cons] at hslack hartificial
  exact ⟨by omega, by omega, by omega, by omega⟩

theorem Room.head_le (h : Room l slack artificial (r :: rest)) :
    slack + slackUse r ≤ l.artificialStart ∧ artificial + artificialUse r ≤ l.width := by
  have hslack := h.slack_le
  have hartificial := h.artificial_le
  rw [List.map_cons, List.sum_cons] at hslack hartificial
  exact ⟨by omega, by omega⟩

theorem length_cells (hr : r.coeffs.length = l.own) :
    (r.coeffs ++ List.replicate (l.width - l.own) (0 : Rat)).length = l.width := by
  rw [List.length_append, List.length_replicate, Layout.width, Layout.artificialStart]
  omega

theorem length_firstLine (hr : r.coeffs.length = l.own) :
    (firstLine l slack artificial r).cells.length = l.width := by
  rw [firstLine]
  cases r.relation with
  | atMost => rw [List.length_set, length_cells hr]
  | atLeast => rw [List.length_set, List.length_set, length_cells hr]
  | equal => rw [List.length_set, length_cells hr]

theorem rhs_firstLine : (firstLine l slack artificial r).rhs = r.rhs := by
  rw [firstLine]
  cases r.relation <;> rfl

/-- A first line is solved for one of the columns it takes. -/
theorem basic_firstLine (l : Layout) (slack artificial : Nat) (r : Row Rat) :
    slack ≤ (firstLine l slack artificial r).basic ∧
        (firstLine l slack artificial r).basic < slack + slackUse r ∨
      artificial ≤ (firstLine l slack artificial r).basic ∧
        (firstLine l slack artificial r).basic < artificial + artificialUse r := by
  rw [firstLine, slackUse, artificialUse]
  cases r.relation with
  | atMost => exact Or.inl ⟨le_refl _, by simp⟩
  | atLeast => exact Or.inr ⟨le_refl _, by simp⟩
  | equal => exact Or.inr ⟨le_refl _, by simp⟩

/-- Behind the own columns a line has an entry in the columns of its row only. -/
theorem coeff_firstLine (h : Room l slack artificial (r :: rest)) (hr : r.coeffs.length = l.own)
    {j : Nat} (hj : l.own ≤ j) :
    (firstLine l slack artificial r).coeff j =
      (if slack = j then slackSign r else 0) +
        if artificial = j then (artificialUse r : Rat) else 0 := by
  have hlen := length_cells hr
  have hzero : (r.coeffs ++ List.replicate (l.width - l.own) (0 : Rat)).getD j 0 = 0 := by
    rw [getD_append_zeros, List.getD_eq_default _ _ (by omega)]
  obtain ⟨hslack, hartificial⟩ := h.head_le
  have hstart := h.start_le
  have hwidth := l.artificialStart_le
  rw [Line.coeff, firstLine, slackSign, artificialUse]
  rw [slackUse] at hslack
  rw [artificialUse] at hartificial
  cases hrel : r.relation with
  | atMost =>
    simp only [hrel, reduceIte, reduceCtorEq] at hslack hartificial ⊢
    rw [getD_set_of_lt (by omega), hzero]
    simp
  | atLeast =>
    simp only [hrel, reduceIte, reduceCtorEq] at hslack hartificial ⊢
    rw [getD_set_of_lt (by rw [List.length_set]; omega), getD_set_of_lt (by omega), hzero]
    by_cases hart : artificial = j
    · have hne : slack ≠ j := by omega
      simp [hart, hne]
    · simp [hart]
  | equal =>
    simp only [hrel, reduceIte, reduceCtorEq] at hslack hartificial ⊢
    rw [getD_set_of_lt (by omega), hzero]
    simp

/-- A row has no entry in columns that it does not take. -/
theorem coeff_firstLine_eq_zero (h : Room l slack artificial (r :: rest))
    (hr : r.coeffs.length = l.own) {j : Nat} (hj : l.own ≤ j)
    (hslack : j < slack ∨ slack + slackUse r ≤ j)
    (hartificial : j < artificial ∨ artificial + artificialUse r ≤ j) :
    (firstLine l slack artificial r).coeff j = 0 := by
  have hsign : (if slack = j then slackSign r else 0) = 0 := by
    split
    next hsj =>
      -- a slack column that is its own end is not taken
      have huse : slackUse r = 0 := by omega
      rw [slackUse] at huse
      split at huse
      next hrel => rw [slackSign, hrel]
      next => cases huse
    next => rfl
  have huse : (if artificial = j then (artificialUse r : Rat) else 0) = 0 := by
    split
    next haj =>
      have huse : artificialUse r = 0 := by omega
      rw [huse, Nat.cast_zero]
    next => rfl
  rw [coeff_firstLine h hr hj, hsign, huse, add_zero]

/-- In its basic column a first line has one. -/
theorem coeff_firstLine_basic (h : Room l slack artificial (r :: rest))
    (hr : r.coeffs.length = l.own) :
    (firstLine l slack artificial r).coeff (firstLine l slack artificial r).basic = 1 := by
  obtain ⟨hslack, hartificial⟩ := h.head_le
  have hstart := h.start_le
  have hown := h.own_le
  have hbehind := l.own_le
  have hbasic : (firstLine l slack artificial r).basic =
      if r.relation = .atMost then slack else artificial := by
    rw [firstLine]
    cases r.relation <;> rfl
  rw [slackUse] at hslack
  rw [hbasic]
  split
  next hrel =>
    rw [hrel, if_neg (by decide)] at hslack
    rw [coeff_firstLine h hr hown, if_pos rfl, if_neg (by omega), slackSign, hrel, add_zero]
  next hrel =>
    have huse : artificialUse r = 1 := if_neg hrel
    rw [coeff_firstLine h hr (by omega), if_pos rfl, huse, Nat.cast_one]
    split
    next hsa =>
      -- the next slack column is artificial only when no slack is left to take
      split at hslack
      next heq =>
        rw [slackSign, heq]
        exact zero_add 1
      next => omega
    next => exact zero_add 1

/-- The form of a first line is that of its row with the extra columns. -/
theorem form_firstLine (h : Room l slack artificial (r :: rest)) (hr : r.coeffs.length = l.own)
    (y : Nat → Rat) :
    form (firstLine l slack artificial r).cells y =
      form r.coeffs y + slackSign r * y slack + artificialUse r * y artificial := by
  have hlen := length_cells hr
  have hzero (j : Nat) (hj : l.own ≤ j) :
      (r.coeffs ++ List.replicate (l.width - l.own) (0 : Rat)).getD j 0 = 0 := by
    rw [getD_append_zeros, List.getD_eq_default _ _ (by omega)]
  obtain ⟨hslack, hartificial⟩ := h.head_le
  have hstart := h.start_le
  have hown := h.own_le
  have hwidth := l.artificialStart_le
  have hbehind := l.own_le
  rw [firstLine, slackSign, artificialUse]
  rw [slackUse] at hslack
  rw [artificialUse] at hartificial
  -- Each relation sets other cells; the cells it sets were zero before.
  cases hrel : r.relation with
  | atMost =>
    simp only [hrel, reduceIte, reduceCtorEq] at hslack hartificial ⊢
    rw [form_set _ _ (by omega), form_append_zeros, hzero slack hown]
    push_cast
    ring
  | atLeast =>
    simp only [hrel, reduceIte, reduceCtorEq] at hslack hartificial ⊢
    rw [form_set _ _ (by rw [List.length_set]; omega), form_set _ _ (by omega),
      getD_set_of_lt (by omega), if_neg (by omega), form_append_zeros, hzero slack hown,
      hzero artificial (by omega)]
    push_cast
    ring
  | equal =>
    simp only [hrel, reduceIte, reduceCtorEq] at hslack hartificial ⊢
    rw [form_set _ _ (by omega), form_append_zeros, hzero artificial (by omega)]
    push_cast
    ring

end

/-! ## All rows -/

section
variable {l : Layout} {slack artificial : Nat} {rows : List (Row Rat)}

theorem length_firstLines : (firstLines l slack artificial rows).length = rows.length := by
  induction rows generalizing slack artificial with
  | nil => rfl
  | cons r rest ih => rw [firstLines_cons, List.length_cons, List.length_cons, ih]

/-- The right side of a line is that of its row. -/
theorem exists_row {a : Line Rat} (ha : a ∈ firstLines l slack artificial rows) :
    ∃ r ∈ rows, a.rhs = r.rhs := by
  induction rows generalizing slack artificial with
  | nil => cases ha
  | cons r rest ih =>
    rw [firstLines_cons] at ha
    rcases List.mem_cons.mp ha with rfl | ha
    · exact ⟨r, List.mem_cons_self .., rhs_firstLine⟩
    · obtain ⟨r', hr', hrhs⟩ := ih ha
      exact ⟨r', List.mem_cons_of_mem _ hr', hrhs⟩

theorem rhs_firstLines (h : ∀ r ∈ rows, 0 ≤ r.rhs) :
    ∀ a ∈ firstLines l slack artificial rows, 0 ≤ a.rhs := by
  intro a ha
  obtain ⟨r, hr, hrhs⟩ := exists_row ha
  rw [hrhs]
  exact h r hr

/-- Basic columns are taken from what is left. -/
theorem basic_firstLines (h : Room l slack artificial rows) :
    ∀ a ∈ firstLines l slack artificial rows,
      slack ≤ a.basic ∧ a.basic < l.artificialStart ∨
        artificial ≤ a.basic ∧ a.basic < l.width := by
  induction rows generalizing slack artificial with
  | nil =>
    intro a ha
    cases ha
  | cons r rest ih =>
    intro a ha
    obtain ⟨hslack, hartificial⟩ := h.head_le
    rw [firstLines_cons] at ha
    rcases List.mem_cons.mp ha with rfl | ha
    · rcases basic_firstLine l slack artificial r with hb | hb
      · exact Or.inl ⟨hb.1, by omega⟩
      · exact Or.inr ⟨hb.1, by omega⟩
    · rcases ih h.next a ha with hb | hb
      · exact Or.inl ⟨by omega, hb.2⟩
      · exact Or.inr ⟨by omega, hb.2⟩

/-- No line has an entry in columns taken before. -/
theorem coeff_firstLines_eq_zero (h : Room l slack artificial rows)
    (hrows : ∀ r ∈ rows, r.coeffs.length = l.own) {j : Nat} (hj : l.own ≤ j)
    (htaken : j < slack ∨ l.artificialStart ≤ j ∧ j < artificial) :
    ∀ a ∈ firstLines l slack artificial rows, a.coeff j = 0 := by
  induction rows generalizing slack artificial with
  | nil =>
    intro a ha
    cases ha
  | cons r rest ih =>
    intro a ha
    obtain ⟨hslack, hartificial⟩ := h.head_le
    rw [firstLines_cons] at ha
    rcases List.mem_cons.mp ha with rfl | ha
    · have hstart := h.start_le
      exact coeff_firstLine_eq_zero h (hrows r (List.mem_cons_self ..)) hj (by omega) (by omega)
    · exact ih h.next (fun r' hr' => hrows r' (List.mem_cons_of_mem _ hr')) (by omega) a ha

/-- The first lines are in canonical form. -/
theorem canonical_firstLines (h : Room l slack artificial rows)
    (hrows : ∀ r ∈ rows, r.coeffs.length = l.own) :
    Canonical l.width (firstLines l slack artificial rows) := by
  induction rows generalizing slack artificial with
  | nil => exact .nil
  | cons r rest ih =>
    have hr := hrows r (List.mem_cons_self ..)
    have hrest : ∀ r ∈ rest, r.coeffs.length = l.own :=
      fun r' hr' => hrows r' (List.mem_cons_of_mem _ hr')
    obtain ⟨hslack, hartificial⟩ := h.head_le
    have hown := h.own_le
    have hstart := h.start_le
    have hbehind := l.own_le
    have hwidth := l.artificialStart_le
    rw [firstLines_cons]
    refine (ih h.next hrest).cons (length_firstLine hr) ?_ (coeff_firstLine_basic h hr) ?_ ?_
    · rcases basic_firstLine l slack artificial r with hb | hb
      · omega
      · omega
    · -- what later rows take, this one does not have
      intro a ha
      rcases basic_firstLines h.next a ha with hb | hb
      · exact coeff_firstLine_eq_zero h hr (by omega) (by omega) (by omega)
      · exact coeff_firstLine_eq_zero h hr (by omega) (by omega) (by omega)
    · -- and the other way round
      intro a ha
      refine coeff_firstLines_eq_zero h.next hrest ?_ ?_ a ha
      · rcases basic_firstLine l slack artificial r with hb | hb
        · omega
        · omega
      · rcases basic_firstLine l slack artificial r with hb | hb
        · omega
        · omega

/-- Slacks that are not negative and artificial columns that are zero make a line say what its
row says. -/
theorem holdsAt_of_solves (h : Room l slack artificial rows)
    (hrows : ∀ r ∈ rows, r.coeffs.length = l.own) {y : Nat → Rat}
    (hslacks : ∀ j, l.own ≤ j → j < l.artificialStart → 0 ≤ y j)
    (hartificials : ∀ j, l.artificialStart ≤ j → j < l.width → y j = 0)
    (hy : Solves (firstLines l slack artificial rows) y) : ∀ r ∈ rows, r.HoldsAt y := by
  induction rows generalizing slack artificial with
  | nil =>
    intro r hr
    cases hr
  | cons r rest ih =>
    rw [firstLines_cons] at hy
    have hhead := hy _ (List.mem_cons_self ..)
    rw [Line.Holds, form_firstLine h (hrows r (List.mem_cons_self ..)), rhs_firstLine] at hhead
    have hown := h.own_le
    have hstart := h.start_le
    obtain ⟨hslack, hartificial⟩ := h.head_le
    refine List.forall_mem_cons.mpr ⟨?_, ih h.next ?_ ?_⟩
    · rw [Row.HoldsAt]
      -- the slack takes up what the row allows; without artificial columns nothing else can
      rw [slackSign, artificialUse] at hhead
      rw [slackUse] at hslack
      rw [artificialUse] at hartificial
      cases hrel : r.relation with
      | atMost =>
        simp only [hrel, reduceIte, reduceCtorEq] at hhead hslack
        have hnonneg := hslacks slack hown (by omega)
        show form r.coeffs y ≤ r.rhs
        push_cast at hhead
        linarith
      | atLeast =>
        simp only [hrel, reduceIte, reduceCtorEq] at hhead hslack hartificial
        have hnonneg := hslacks slack hown (by omega)
        have hzero := hartificials artificial hstart (by omega)
        show r.rhs ≤ form r.coeffs y
        push_cast at hhead
        rw [hzero] at hhead
        linarith
      | equal =>
        simp only [hrel, reduceIte, reduceCtorEq] at hhead hartificial
        have hzero := hartificials artificial hstart (by omega)
        show form r.coeffs y = r.rhs
        push_cast at hhead
        rw [hzero] at hhead
        linarith
    · exact fun r' hr' => hrows r' (List.mem_cons_of_mem _ hr')
    · exact fun a ha => hy a (List.mem_cons_of_mem _ ha)

/-- The slack that a row leaves at an assignment. -/
def slackAt (r : Row Rat) (y : Nat → Rat) : Rat := slackSign r * (r.rhs - form r.coeffs y)

theorem slackAt_nonneg {r : Row Rat} {y : Nat → Rat} (h : r.HoldsAt y) : 0 ≤ slackAt r y := by
  rw [Row.HoldsAt] at h
  rw [slackAt, slackSign]
  cases hrel : r.relation with
  | atMost =>
    rw [hrel] at h
    have h : form r.coeffs y ≤ r.rhs := h
    simp only
    linarith
  | atLeast =>
    rw [hrel] at h
    have h : r.rhs ≤ form r.coeffs y := h
    simp only
    linarith
  | equal => simp

/-- With its slack a row is an equation. -/
theorem slackSign_mul_slackAt {r : Row Rat} {y : Nat → Rat} (h : r.HoldsAt y) :
    slackSign r * slackAt r y = r.rhs - form r.coeffs y := by
  rw [Row.HoldsAt] at h
  rw [slackAt, slackSign]
  cases hrel : r.relation with
  | atMost => ring
  | atLeast => ring
  | equal =>
    rw [hrel] at h
    have h : form r.coeffs y = r.rhs := h
    rw [h]
    ring

/-- The line of a row holds as soon as its slack column has the right value. -/
theorem firstLine_holds {r : Row Rat} {rest : List (Row Rat)}
    (h : Room l slack artificial (r :: rest)) (hr : r.coeffs.length = l.own) {y z : Nat → Rat}
    (hartificials : ∀ j, l.artificialStart ≤ j → y j = 0) (hy : r.HoldsAt y)
    (hsame : ∀ j, j < slack ∨ l.artificialStart ≤ j → z j = y j)
    (hslack : slackSign r * z slack = slackSign r * slackAt r y) :
    (firstLine l slack artificial r).Holds z := by
  have hown := h.own_le
  have hstart := h.start_le
  have hform : form r.coeffs z = form r.coeffs y :=
    form_congr _ fun j hj => hsame j (Or.inl (by omega))
  rw [Line.Holds, form_firstLine h hr, rhs_firstLine, hform, hslack, slackSign_mul_slackAt hy,
    hsame artificial (Or.inr hstart), hartificials artificial hstart]
  ring

/-- The lines of later rows do not have an earlier slack column. -/
theorem solves_update (h : Room l slack artificial rows)
    (hrows : ∀ r ∈ rows, r.coeffs.length = l.own) {i : Nat} (hown : l.own ≤ i) (hi : i < slack)
    {z : Nat → Rat} (hz : Solves (firstLines l slack artificial rows) z) (v : Rat) :
    Solves (firstLines l slack artificial rows) (Function.update z i v) := by
  intro a ha
  have hzero := coeff_firstLines_eq_zero h hrows hown (Or.inl hi) a ha
  rw [Line.Holds, form_update]
  show form a.cells z + a.coeff i * _ = a.rhs
  rw [hzero, zero_mul, add_zero]
  exact hz a ha

/-- The slacks that rows leave make an assignment a solution of their lines. -/
theorem exists_solves (h : Room l slack artificial rows)
    (hrows : ∀ r ∈ rows, r.coeffs.length = l.own) {y : Nat → Rat}
    (hartificials : ∀ j, l.artificialStart ≤ j → y j = 0) (hy : ∀ r ∈ rows, r.HoldsAt y) :
    ∃ z, (∀ j, j < slack ∨ l.artificialStart ≤ j → z j = y j) ∧
      (∀ j, 0 ≤ y j → 0 ≤ z j) ∧ Solves (firstLines l slack artificial rows) z := by
  -- From the last row up: what solves the rest is changed in the slack column of the head only,
  -- where the rest has no entry.
  induction rows generalizing slack artificial with
  | nil => exact ⟨y, fun _ _ => rfl, fun _ hj => hj, fun a ha => by cases ha⟩
  | cons r rest ih =>
    have hr := hrows r (List.mem_cons_self ..)
    have hhead := hy r (List.mem_cons_self ..)
    have hrest : ∀ r ∈ rest, r.coeffs.length = l.own :=
      fun r' hr' => hrows r' (List.mem_cons_of_mem _ hr')
    obtain ⟨z, hsame, hnonneg, hz⟩ :=
      ih h.next hrest fun r' hr' => hy r' (List.mem_cons_of_mem _ hr')
    obtain ⟨hslack, _⟩ := h.head_le
    rw [firstLines_cons]
    -- An equation has no slack; its own balance is that of the row.
    by_cases hrel : r.relation = .equal
    · have huse : slackUse r = 0 := if_pos hrel
      rw [huse, Nat.add_zero] at hsame
      have hsign : slackSign r = 0 := by rw [slackSign, hrel]
      refine ⟨z, hsame, hnonneg, List.forall_mem_cons.mpr ⟨?_, hz⟩⟩
      exact firstLine_holds h hr hartificials hhead hsame (by rw [hsign, zero_mul, zero_mul])
    · have huse : slackUse r = 1 := if_neg hrel
      rw [huse] at hslack hsame
      have hupdate (j : Nat) (hj : j < slack ∨ l.artificialStart ≤ j) :
          Function.update z slack (slackAt r y) j = y j := by
        rw [Function.update_of_ne (by omega), hsame j (by omega)]
      refine ⟨Function.update z slack (slackAt r y), hupdate, ?_,
        List.forall_mem_cons.mpr ⟨?_, ?_⟩⟩
      · intro j hj
        by_cases hjs : j = slack
        · rw [hjs, Function.update_self]
          exact slackAt_nonneg hhead
        · rw [Function.update_of_ne hjs]
          exact hnonneg j hj
      · refine firstLine_holds h hr hartificials hhead hupdate ?_
        rw [Function.update_self]
      · exact solves_update h.next hrest h.own_le (by omega) hz _

end

/-! ## The whole system -/

/-- Assignments without negative amounts and without artificial columns. -/
def Layout.Admits (l : Layout) (y : Nat → Rat) : Prop :=
  (∀ j < l.width, 0 ≤ y j) ∧ ∀ j, l.artificialStart ≤ j → j < l.width → y j = 0

/-- The columns taken by the rows one by one are those counted in the layout. -/
theorem sum_use (none : Relation) (rows : List (Row Rat)) :
    (rows.map fun r => if r.relation = none then 0 else 1).sum =
      (rows.filter fun r => r.relation != none).length := by
  induction rows with
  | nil => rfl
  | cons r rest ih =>
    rw [List.map_cons, List.sum_cons, ih, List.filter_cons]
    by_cases hr : r.relation = none
    · simp [hr]
    · simp [hr, Nat.add_comm]

/-- The layout of some rows has room for them. -/
theorem room_layout (n : Nat) (rows : List (Row Rat)) :
    Room (layout n rows) (layout n rows).own (layout n rows).artificialStart rows := by
  have hslacks : (rows.map slackUse).sum = (layout n rows).slacks := sum_use .equal rows
  have hartificials : (rows.map artificialUse).sum = (layout n rows).artificials :=
    sum_use .atMost rows
  constructor
  case own_le => exact le_refl _
  case slack_le => rw [hslacks, Layout.artificialStart]
  case start_le => exact le_refl _
  case artificial_le => rw [hartificials, Layout.width]

/-- Amounts satisfy the rows exactly when slacks can be found for them that solve the lines. -/
theorem holds_iff_solution {n : Nat} {rows : List (Row Rat)}
    (hrows : ∀ r ∈ rows, r.coeffs.length = n) (d : Nat → Rat) :
    ((∀ j < n, 0 ≤ d j) ∧ ∀ r ∈ rows, r.HoldsAt d) ↔
      ∃ y, (∀ j < n, y j = d j) ∧ (layout n rows).Admits y ∧
        Solves (firstTableau (layout n rows) rows).lines y := by
  have hroom := room_layout n rows
  have hbehind : n ≤ (layout n rows).artificialStart := (layout n rows).own_le
  have hwidth := (layout n rows).artificialStart_le
  have hcongr {y z : Nat → Rat} (h : ∀ j < n, y j = z j) {r : Row Rat} (hr : r ∈ rows) :
      r.HoldsAt y ↔ r.HoldsAt z := by
    rw [Row.HoldsAt, Row.HoldsAt, form_congr _ fun j hj => h j (by rwa [hrows r hr] at hj)]
  constructor
  · rintro ⟨hd, hholds⟩
    -- the amounts with nothing in the other columns; the slacks are put in row by row
    let own : Nat → Rat := fun j => if j < n then d j else 0
    have hown : ∀ j < n, own j = d j := fun j hj => if_pos hj
    have hnonneg (j : Nat) : 0 ≤ own j := by
      by_cases hj : j < n
      · rw [hown j hj]
        exact hd j hj
      · exact le_of_eq (if_neg hj).symm
    have hzero : ∀ j, (layout n rows).artificialStart ≤ j → own j = 0 :=
      fun j hj => if_neg (by omega)
    obtain ⟨y, hsame, hy, hsolves⟩ :=
      exists_solves hroom hrows hzero fun r hr => (hcongr hown hr).mpr (hholds r hr)
    refine ⟨y, ?_, ⟨fun j _ => hy j (hnonneg j), ?_⟩, hsolves⟩
    · intro j hj
      rw [hsame j (Or.inl hj), hown j hj]
    · intro j hj _
      rw [hsame j (Or.inr hj), hzero j hj]
  · rintro ⟨y, hown, ⟨hnonneg, hzero⟩, hsolves⟩
    constructor
    · intro j hj
      rw [← hown j hj]
      exact hnonneg j (by omega)
    · intro r hr
      refine (hcongr hown hr).mp ?_
      exact holdsAt_of_solves hroom hrows (fun j _ hj => hnonneg j (by omega)) hzero hsolves r hr

/-! ## Cost lines -/

/-- A cost line with every line taken off at its basic column. -/
def priceOut (lines : List (Line Rat)) (c : Cost Rat) : Cost Rat :=
  lines.foldl (fun c line => c.eliminate line line.basic) c

/-- Taking lines off one after another makes the cost zero on their basic columns: a column that
is zero stays so, as only its own line has it. Values on solutions stay as they are. -/
theorem priceOut_spec {n : Nat} {lines : List (Line Rat)} (hc : Canonical n lines)
    {todo : List (Line Rat)} (hsub : ∀ a ∈ todo, a ∈ lines) {c : Cost Rat}
    (hwidth : c.cells.length = n) :
    (priceOut todo c).cells.length = n ∧
      (∀ b ∈ lines, b ∈ todo ∨ c.coeff b.basic = 0 → (priceOut todo c).coeff b.basic = 0) ∧
      ∀ y, Solves lines y →
        form (priceOut todo c).cells y - (priceOut todo c).rhs = form c.cells y - c.rhs := by
  induction todo generalizing c with
  | nil => exact ⟨hwidth, fun b _ hb => hb.resolve_left List.not_mem_nil, fun _ _ => rfl⟩
  | cons a rest ih =>
    have ha := hsub a (List.mem_cons_self ..)
    have hlen : c.cells.length = a.cells.length := hwidth.trans (hc.width a ha).symm
    obtain ⟨hwidth', hzero, hvalue⟩ :=
      ih (fun b hb => hsub b (List.mem_cons_of_mem _ hb))
        ((length_eliminate_cost a c a.basic hlen).trans hwidth)
    refine ⟨hwidth', ?_, ?_⟩
    · intro b hb hbefore
      refine hzero b hb ?_
      by_cases hba : b = a
      · right
        rw [hba, coeff_eliminate_cost _ _ _ _ hlen, hc.coeff_basic ha, mul_one, sub_self]
      · -- taking `a` off does not touch the basic column of another line
        have hab : a.coeff b.basic = 0 := by
          by_contra hne
          exact hba (hc.eq_of_coeff_ne_zero ha hb hne).symm
        rw [coeff_eliminate_cost _ _ _ _ hlen, hab, mul_zero, sub_zero]
        rcases hbefore with hmem | hb0
        · exact Or.inl ((List.mem_cons.mp hmem).resolve_left hba)
        · exact Or.inr hb0
    · intro y hy
      rw [← value_eliminate_cost a c a.basic hlen (hy a ha)]
      exact hvalue y hy

/-- Taking off every line at its basic column prices an objective. -/
theorem prices_priceOut {n : Nat} {lines : List (Line Rat)} (hc : Canonical n lines)
    {cells : List Rat} (hcells : cells.length = n) :
    (priceOut lines ⟨cells, 0⟩).Prices n lines (form cells) := by
  obtain ⟨hwidth, hzero, hvalue⟩ :=
    priceOut_spec hc (fun _ ha => ha) (c := ⟨cells, 0⟩) hcells
  refine ⟨hwidth, fun b hb => hzero b hb (Or.inl hb), ?_⟩
  intro y hy
  rw [hvalue y hy, sub_zero]

/-- The cost of the first phase: one in every artificial column. -/
def Layout.artificialCells (l : Layout) : List Rat :=
  List.replicate l.artificialStart 0 ++ List.replicate l.artificials 1

section
variable (l : Layout)

theorem length_artificialCells : l.artificialCells.length = l.width := by
  rw [Layout.artificialCells, List.length_append, List.length_replicate, List.length_replicate,
    Layout.width]

theorem getD_artificialCells {j : Nat} (hj : j < l.width) :
    l.artificialCells.getD j 0 = if l.artificialStart ≤ j then 1 else 0 := by
  rw [Layout.width] at hj
  rw [Layout.artificialCells]
  split
  next h =>
    rw [List.getD_append_right _ _ _ _ (by rwa [List.length_replicate]), List.length_replicate]
    exact List.getD_replicate _ (by omega)
  next h =>
    rw [List.getD_append _ _ _ _ (by rw [List.length_replicate]; omega)]
    exact List.getD_replicate _ (by omega)

variable {l} {y : Nat → Rat}

theorem artificial_term_nonneg (h : ∀ j < l.width, 0 ≤ y j) {j : Nat} (hj : j < l.width) :
    0 ≤ l.artificialCells.getD j 0 * y j := by
  rw [getD_artificialCells l hj]
  split
  next =>
    rw [one_mul]
    exact h j hj
  next => rw [zero_mul]

/-- The artificial columns do not cost less than nothing together. -/
theorem form_artificialCells_nonneg (h : ∀ j < l.width, 0 ≤ y j) :
    0 ≤ form l.artificialCells y := by
  refine form_nonneg _ _ ?_
  intro j hj
  rw [length_artificialCells] at hj
  exact artificial_term_nonneg h hj

theorem form_artificialCells_eq_zero_iff (h : ∀ j < l.width, 0 ≤ y j) :
    form l.artificialCells y = 0 ↔ ∀ j, l.artificialStart ≤ j → j < l.width → y j = 0 := by
  rw [form, length_artificialCells, Finset.sum_eq_zero_iff_of_nonneg
    fun j hj => artificial_term_nonneg h (Finset.mem_range.mp hj)]
  constructor
  · intro hzero j hstart hj
    have hterm := hzero j (Finset.mem_range.mpr hj)
    rwa [getD_artificialCells l hj, if_pos hstart, one_mul] at hterm
  · intro hzero j hj
    have hj := Finset.mem_range.mp hj
    rw [getD_artificialCells l hj]
    split
    next hstart => rw [hzero j hstart hj, mul_zero]
    next => exact zero_mul _

end

/-- In the first phase a line is taken off once if its basic column is artificial. That is its
cost there, as no other line has its basic column. -/
theorem foldl_takeOff_eq_priceOut {l : Layout} {lines : List (Line Rat)}
    (hc : Canonical l.width lines) {c : Cost Rat} (hwidth : c.cells.length = l.width)
    (hcost : ∀ b ∈ lines, c.coeff b.basic = if l.artificialStart ≤ b.basic then 1 else 0) :
    lines.foldl
      (fun c line =>
        if l.artificialStart ≤ line.basic then
          ⟨List.zipWith (· - ·) c.cells line.cells, c.rhs - line.rhs⟩
        else c) c = priceOut lines c := by
  induction lines generalizing c with
  | nil => rfl
  | cons a rest ih =>
    obtain ⟨hrest, hrow⟩ := hc.of_cons
    have ha := hcost a (List.mem_cons_self ..)
    have hlen : c.cells.length = a.cells.length :=
      hwidth.trans (hc.width a (List.mem_cons_self ..)).symm
    -- An artificial has cost one, every other basic column none: elimination takes the line off or
    -- leaves the cost.
    have hhead : (if l.artificialStart ≤ a.basic then
        ⟨List.zipWith (· - ·) c.cells a.cells, c.rhs - a.rhs⟩ else c) =
        c.eliminate a a.basic := by
      simp only [Cost.eliminate]
      rw [ha]
      split
      next => simp [takeOff]
      next => simp
    rw [List.foldl_cons, hhead, priceOut, List.foldl_cons]
    refine ih hrest ((length_eliminate_cost _ _ _ hlen).trans hwidth) ?_
    intro b hb
    -- The rows are canonical, so the costs of the later basic columns are untouched.
    rw [coeff_eliminate_cost _ _ _ _ hlen, hrow b hb, mul_zero, sub_zero]
    exact hcost b (List.mem_cons_of_mem _ hb)

/-- The cost of the first phase is the artificial cost with the basic columns priced out. -/
theorem artificialCost_eq_priceOut {l : Layout} {lines : List (Line Rat)}
    (hc : Canonical l.width lines) :
    artificialCost l lines = priceOut lines ⟨l.artificialCells, 0⟩ :=
  foldl_takeOff_eq_priceOut hc (length_artificialCells l) fun b hb =>
    getD_artificialCells l (hc.basic_lt b hb)

/-- The first tableau represents the lines of the rows, with the sum of the artificial columns as
the objective. -/
theorem represents_firstTableau {n : Nat} {rows : List (Row Rat)}
    (hrows : ∀ r ∈ rows, r.coeffs.length = n) :
    (firstTableau (layout n rows) rows).Represents (layout n rows).width
      (Solves (firstTableau (layout n rows) rows).lines)
      (form (layout n rows).artificialCells) := by
  have hc : Canonical (layout n rows).width (firstTableau (layout n rows) rows).lines :=
    canonical_firstLines (room_layout n rows) hrows
  refine ⟨hc, ?_, fun _ => Iff.rfl⟩
  show (artificialCost _ (firstTableau (layout n rows) rows).lines).Prices _ _ _
  rw [artificialCost_eq_priceOut hc]
  exact prices_priceOut hc (length_artificialCells _)

end GoalBudget.Simplex
