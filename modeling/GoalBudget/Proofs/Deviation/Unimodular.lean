import GoalBudget.Proofs.Deviation.Reformulation
import GoalBudget.Proofs.Simplex.Integral

/-!
# Goal programs are networks

Put the amounts of the variables on top of each other, so that each one leads from the sum of those
before it to the sum that includes it (`stack`). What is below the target of a goal is placed where
its variable ends, and what is above where its variable starts (`footOf`). Then the row of a goal
leads from the end of what is above to the end of what is below, and the budget row from zero to the
sum of all variables: the program is a network (`isNetwork_linearCalls`), for any number of
variables and goals and for any amounts.

So the simplex method never sees another coefficient than -1, 0 and 1 in the lines of its tableaus,
all of which are far from its tolerance (`IsSign.tolerance_lt_iff`), and from whole amounts it finds
whole ones. The costs are not part of this: penalties are any numbers.

Main result: `linear_tableaus_unimodular`.
-/

namespace GoalBudget

/-- A tolerance below one tells the signs apart. -/
theorem IsSign.tolerance_lt_iff {c tolerance : Rat} (h : IsSign c) (hnonneg : 0 ≤ tolerance)
    (hlt : tolerance < 1) :
    (tolerance < c ↔ 0 < c) ∧ (tolerance < magnitude c ↔ c ≠ 0) := by
  rw [magnitude_eq_abs]
  rcases h with rfl | rfl | rfl
  · exact ⟨by constructor <;> intro h <;> linarith, by simpa using hlt⟩
  · exact ⟨by simpa using hnonneg, by simpa using hnonneg⟩
  · exact ⟨by simpa using hlt, by simpa using hlt⟩

theorem form_ones_append_zeros (n k : Nat) (y : Nat → Rat) :
    form (List.replicate n 1 ++ List.replicate k 0) y = ∑ j ∈ Finset.range n, y j := by
  rw [form_append_zeros, form, List.length_replicate]
  refine Finset.sum_congr rfl fun j hj => ?_
  rw [List.getD_replicate _ (Finset.mem_range.mp hj), one_mul]

/-- Whole bounds and a whole income make a whole upper bound. -/
theorem Variable.upperBound_mem_whole {v : Variable Rat} {income : Rat} (hincome : income ∈ whole)
    (hminimum : v.minimum ∈ whole) (hmaximum : v.maximum ∈ whole) :
    v.upperBound income ∈ whole := by
  unfold upperBound
  split
  next => exact hmaximum
  next => exact greatest_mem_whole hincome hminimum

namespace DeviationProgram

variable {p : DeviationProgram Rat} {y : Nat → Rat}

/-- The simplex method with the linear program. -/
def simplex (p : DeviationProgram Rat) : Simplex Rat := Simplex.ofCalls p.width p.linearCalls

/-! ## Where the columns are placed -/

/-- How many variables lie below the foot of each column. -/
def passed (p : DeviationProgram Rat) : List Nat :=
  List.range p.vars.length ++ p.goals.map (·.index + 1) ++ p.goals.map (·.index)

/-- The amounts of the first variables together. -/
def stack (y : Nat → Rat) (count : Nat) : Rat := ∑ i ∈ Finset.range count, y i

/-- The foot of every column. -/
def footOf (p : DeviationProgram Rat) (y : Nat → Rat) (j : Nat) : Rat :=
  stack y (p.passed.getD j 0)

theorem footOf_variable {i : Nat} (hi : i < p.vars.length) : p.footOf y i = stack y i := by
  rw [footOf, passed, List.append_assoc, List.getD_append _ _ _ _ (by rwa [List.length_range]),
    List.getD_eq_getElem _ _ (by rwa [List.length_range]), List.getElem_range]

section
variable {j : Nat} {g : DeviationGoal Rat} (hg : p.goals[j]? = some g)

include hg

theorem footOf_below : p.footOf y (p.vars.length + j) = stack y (g.index + 1) := by
  obtain ⟨hj, rfl⟩ := List.getElem?_eq_some_iff.mp hg
  rw [footOf, passed, List.append_assoc,
    List.getD_append_right _ _ _ _ (by rw [List.length_range]; omega), List.length_range,
    Nat.add_sub_cancel_left, List.getD_append _ _ _ _ (by rwa [List.length_map]),
    List.getD_eq_getElem _ _ (by rwa [List.length_map]), List.getElem_map]

theorem footOf_above : p.footOf y (p.vars.length + p.goals.length + j) = stack y g.index := by
  obtain ⟨hj, rfl⟩ := List.getElem?_eq_some_iff.mp hg
  have hlen : (List.range p.vars.length ++
      p.goals.map fun g : DeviationGoal Rat => g.index + 1).length =
        p.vars.length + p.goals.length := by
    rw [List.length_append, List.length_range, List.length_map]
  rw [footOf, passed, List.getD_append_right _ _ _ _ (by omega), hlen, Nat.add_sub_cancel_left,
    List.getD_eq_getElem _ _ (by rwa [List.length_map]), List.getElem_map]

end

/-- What is measured along a variable lies between two sums. -/
theorem climb_variable (f : Rat → Rat) {i : Nat} (hi : i < p.vars.length) :
    climb f (p.footOf y) y i = f (stack y (i + 1)) - f (stack y i) := by
  rw [climb, footOf_variable hi, stack, stack, Finset.sum_range_succ]

/-! ## The rows -/

/-- The row of a goal is a path. -/
theorem leads_goalRow {j : Nat} {g : DeviationGoal Rat} (hg : p.goals[j]? = some g) :
    Leads (sparse p.width [(g.index, 1), (p.vars.length + j, 1),
        (p.vars.length + p.goals.length + j, -1)]) (p.footOf y) y
      (stack y g.index + y (p.vars.length + p.goals.length + j))
      (stack y (g.index + 1) + y (p.vars.length + j)) := by
  intro f
  obtain ⟨hj, _⟩ := List.getElem?_eq_some_iff.mp hg
  have hmem := List.mem_of_getElem? hg
  have hindex : g.index < p.vars.length := p.index_lt g hmem
  rw [form_goalRow hmem hj, climb_variable f hindex, climb, climb, footOf_below hg,
    footOf_above hg]
  ring

/-- The variables follow one another, so what is between them cancels out. -/
theorem leads_budgetRow (p : DeviationProgram Rat) (y : Nat → Rat) :
    Leads (List.replicate p.vars.length 1 ++ List.replicate (2 * p.goals.length) 0) (p.footOf y) y
      (stack y 0) (stack y p.vars.length) := by
  intro f
  rw [form_ones_append_zeros, ← Finset.sum_range_sub fun i => f (stack y i)]
  refine Finset.sum_congr rfl fun i hi => ?_
  exact climb_variable f (Finset.mem_range.mp hi)

/-- The program is a network. -/
theorem isNetwork_linearCalls (p : DeviationProgram Rat) : IsNetwork p.simplex.program.rows := by
  have hrows : p.simplex.program.rows = p.linearCalls.filterMap Call.statedRow :=
    Program.rows_ofCalls p.linearCalls
  intro y
  refine ⟨p.footOf y, ?_⟩
  rw [hrows, statedRows_linearCalls, List.forall_mem_append, List.forall_mem_map,
    List.forall_mem_singleton]
  constructor
  · rintro ⟨g, j⟩ hg
    exact ⟨_, _, leads_goalRow (List.mk_mem_zipIdx_iff_getElem?.mp hg)⟩
  · exact ⟨_, _, leads_budgetRow p y⟩

/-! ## The statements -/

/-- Every statement is one that the simplex method takes. -/
theorem check_linearCalls (p : DeviationProgram Rat) :
    ∀ call ∈ p.linearCalls, Simplex.check p.width call = .ok () := by
  have hbounds {column : Nat} (hcolumn : column < p.width) (lower : Rat) (upper : Limit Rat) :
      Simplex.check p.width (.bounds column lower upper) = .ok () := by
    rw [Simplex.check, if_neg (not_not.mpr (by omega))]
    exact if_pos rfl
  have hcoeffs {coeffs : List Rat} (hlen : coeffs.length = p.width) :
      Simplex.checkCoeffs p.width coeffs = .ok () := if_pos hlen
  have hwidth : p.width = p.vars.length + 2 * p.goals.length := rfl
  refine forall_linearCalls (hcoeffs ?_) ?_ ?_ (hcoeffs ?_)
  · simp only [penalties, List.length_append, List.length_map]
    omega
  · intro i v hv
    obtain ⟨hi, _⟩ := List.getElem?_eq_some_iff.mp hv
    exact hbounds (by omega) _ _
  · intro j g hg
    obtain ⟨hj, _⟩ := List.getElem?_eq_some_iff.mp hg
    exact ⟨hbounds (by omega) _ _, hbounds (by omega) _ _, hcoeffs (length_sparse _ _)⟩
  · rw [List.length_append, List.length_map, List.length_replicate]
    rfl

section
variable (hincome : p.income ∈ whole)
  (hvars : ∀ v ∈ p.vars, v.minimum ∈ whole ∧ v.maximum ∈ whole)
  (hgoals : ∀ g ∈ p.goals, g.target ∈ whole)

include hincome hvars hgoals

theorem isWhole_linearCalls : ∀ call ∈ p.linearCalls, call.IsWhole := by
  refine forall_linearCalls trivial ?_ ?_ ⟨?_, hincome⟩
  · intro i v hv
    obtain ⟨hminimum, hmaximum⟩ := hvars v (List.mem_of_getElem? hv)
    exact ⟨hminimum, Variable.upperBound_mem_whole hincome hminimum hmaximum⟩
  · intro j g hg
    have htarget := hgoals g (List.mem_of_getElem? hg)
    refine ⟨⟨zero_mem whole, greatest_mem_whole htarget hincome⟩, ⟨zero_mem whole, hincome⟩,
      fun a ha => ?_, htarget⟩
    rcases mem_sparse ha with rfl | ⟨t, ht, rfl⟩
    · exact zero_mem whole
    · simp only [List.mem_cons, List.not_mem_nil, or_false] at ht
      rcases ht with rfl | rfl | rfl
      · exact one_mem whole
      · exact one_mem whole
      · exact neg_mem (one_mem whole)
  · rw [List.forall_mem_append, List.forall_mem_map]
    refine ⟨fun _ _ => one_mem whole, fun a ha => ?_⟩
    rw [List.eq_of_mem_replicate ha]
    exact zero_mem whole

end

/-! ## Tableaus and solutions -/

theorem stated_simplex (p : DeviationProgram Rat) :
    Simplex.Stated p.width 1000 1e-9 p.simplex :=
  Simplex.stated_ofCalls p.check_linearCalls

/-- Whatever the variables, goals and amounts are: in every tableau of both phases and between
them all coefficients of the lines are -1, 0 or 1, so the tolerance skips those that are zero, or
not positive, and no other. If income, bounds and targets are whole, so is every optimal
solution. -/
theorem linear_tableaus_unimodular (p : DeviationProgram Rat) :
    ((Simplex.backend p.width).run p.linearCalls).answer = p.simplex.solve ∧
    (∀ t, p.simplex.Visits t → ∀ a ∈ t.lines, ∀ c ∈ a.cells, IsSign c ∧
      (p.simplex.tolerance < c ↔ 0 < c) ∧ (p.simplex.tolerance < magnitude c ↔ c ≠ 0)) ∧
    (p.income ∈ whole → (∀ v ∈ p.vars, v.minimum ∈ whole ∧ v.maximum ∈ whole) →
      (∀ g ∈ p.goals, g.target ∈ whole) →
      ∀ answer, ((Simplex.backend p.width).run p.linearCalls).answer = .ok answer →
        answer.status = .optimal → ∀ x ∈ answer.solution, x ∈ whole) := by
  have hanswer := Simplex.answer_run_backend p.check_linearCalls
  have hstated := p.stated_simplex
  have hnonneg : 0 ≤ p.simplex.tolerance := by
    rw [hstated.tolerance_eq]
    norm_num
  have hlt : p.simplex.tolerance < 1 := by
    rw [hstated.tolerance_eq]
    norm_num
  refine ⟨hanswer, fun t ht a ha c hc => ?_, fun hincome hvars hgoals answer hrun hstatus => ?_⟩
  · obtain ⟨j, hj, rfl⟩ := List.mem_iff_getElem.mp hc
    have hsign : IsSign (a.coeff j) :=
      ht.isSign_coeff hstated.continuous p.isNetwork_linearCalls ha j
    rw [Simplex.Line.coeff, List.getD_eq_getElem _ _ hj] at hsign
    exact ⟨hsign, hsign.tolerance_lt_iff hnonneg hlt⟩
  · rw [hanswer] at hrun
    exact Simplex.solution_whole hstated.continuous p.isNetwork_linearCalls
      (Program.isWhole_ofCalls (isWhole_linearCalls hincome hvars hgoals)) hnonneg hrun hstatus

/-- The simplex method shares the income of two needs in whole amounts. -/
theorem linear_tableaus_unimodular_twoNeeds :
    twoNeeds.income ∈ whole ∧
      (∀ v ∈ twoNeeds.vars, v.minimum ∈ whole ∧ v.maximum ∈ whole) ∧
      (∀ g ∈ twoNeeds.goals, g.target ∈ whole) ∧
      twoNeeds.simplex.Visits twoNeeds.simplex.firstStart ∧
      ∃ answer, ((Simplex.backend twoNeeds.width).run twoNeeds.linearCalls).answer = .ok answer ∧
        answer.status = .optimal ∧ ∀ x ∈ answer.solution, x ∈ whole := by
  have hincome : twoNeeds.income ∈ whole := by decide +kernel
  have hvars : ∀ v ∈ twoNeeds.vars, v.minimum ∈ whole ∧ v.maximum ∈ whole := by decide +kernel
  have hgoals : ∀ g ∈ twoNeeds.goals, g.target ∈ whole := by decide +kernel
  have hrun : (((Simplex.backend twoNeeds.width).run
      twoNeeds.linearCalls).answer.toOption.map (·.status)) = some .optimal := by decide +kernel
  obtain ⟨answer, hanswer, hstatus⟩ := exists_of_toOption_map hrun
  obtain ⟨_, _, hwhole⟩ := linear_tableaus_unimodular twoNeeds
  exact ⟨hincome, hvars, hgoals, .inl ⟨0, .none _⟩, answer, hanswer, hstatus,
    hwhole hincome hvars hgoals answer hanswer hstatus⟩

end DeviationProgram

end GoalBudget
