import GoalBudget.Program.Command
import GoalBudget.Proofs.Simplex.Linear

/-!
# What a command is handed

A command gets rows and an objective without the coefficients that are zero. Leaving them out
changes no value (`termSum_terms`), so the points of what is handed over can be told without looking
at what was stated (`Command.Feasible`).

A command deals with the columns that occur and may well leave the bounds of others alone, so an
answer is judged by the columns that it keeps within their bounds: those that occur, and perhaps
some more (`Command.Optimizes`). What is reported of such an answer is the value of its objective,
if there is an objective and if it has a column (`Command.solve_optimizes`).

The values that a command sets are not the solution that is reported. They are taken over into the
columns first, where older values may stand, and read from there. For a fresh command that is asked
once this makes no difference in the columns that occur, and that is all that rows and objective
look at (`value_congr`, `holds_congr`).
-/

namespace GoalBudget

/-! ## Terms -/

/-- The value of terms at a point. -/
def termSum (terms : List (Nat × Rat)) (point : List Rat) : Rat :=
  (terms.map fun t => t.2 * point.getD t.1 0).sum

/-- The value of terms depends on their columns only. -/
theorem termSum_congr {terms : List (Nat × Rat)} {point other : List Rat}
    (h : ∀ t ∈ terms, point.getD t.1 0 = other.getD t.1 0) :
    termSum terms point = termSum terms other := by
  refine congrArg List.sum (List.map_congr_left fun t ht => ?_)
  rw [h t ht]

/-- Terms that are left out because they are zero do not count. -/
theorem sum_filter_isNonzero (y : Nat → Rat) (entries : List (Rat × Nat)) :
    ((entries.filter fun e => isNonzero e.1).map fun e => e.1 * y e.2).sum =
      (entries.map fun e => e.1 * y e.2).sum := by
  induction entries with
  | nil => rfl
  | cons e rest ih =>
    by_cases hzero : e.1 = 0
    · rw [List.filter_cons_of_neg (by simp [hzero]), ih, List.map_cons, List.sum_cons, hzero,
        zero_mul, zero_add]
    · rw [List.filter_cons_of_pos (by simpa using hzero), List.map_cons, List.sum_cons, ih,
        List.map_cons, List.sum_cons]

/-- The terms of a row have its value. -/
theorem termSum_terms (coeffs point : List Rat) :
    termSum (Command.terms coeffs) point = dot coeffs point := by
  have hform := form_map_items (fun j => point.getD j 0) id coeffs
  rw [List.map_id] at hform
  rw [dot_eq_form, hform, termSum, Command.terms, List.map_map]
  exact sum_filter_isNonzero (fun j => point.getD j 0) coeffs.zipIdx

/-- A term is about one of the columns. -/
theorem lt_of_mem_terms {coeffs : List Rat} {t : Nat × Rat} (h : t ∈ Command.terms coeffs) :
    t.1 < coeffs.length := by
  obtain ⟨e, he, rfl⟩ := List.mem_map.mp h
  exact (List.mem_zipIdx' (List.mem_of_mem_filter he)).1

/-- Whether a point satisfies a row that is handed over. -/
def SparseRow.Holds (r : SparseRow Rat) (point : List Rat) : Prop :=
  r.relation.Holds (termSum r.terms point) r.rhs

namespace SparseProgram

/-- The objective of a point. A column that stands in is fixed at zero and adds nothing. -/
def value (p : SparseProgram Rat) (point : List Rat) : Rat := termSum p.objective point

/-- Whether one objective is at least as good as another. -/
def AsGood (p : SparseProgram Rat) (a b : Rat) : Prop := if p.maximize then b ≤ a else a ≤ b

end SparseProgram

namespace Command

variable {c : Command Rat} {o : Outcome Rat} {point other : List Rat}

/-! ## Points -/

/-- Whether a point satisfies the rows that are handed over and the bounds of the columns that
are kept. -/
def Feasible (c : Command Rat) (kept : Nat → Prop) (point : List Rat) : Prop :=
  point.length = c.columns.length ∧
    (∀ j column x, kept j → c.columns[j]? = some column → point[j]? = some x →
      column.toColumn.Allows x) ∧
    ∀ r ∈ c.handed.rows, r.Holds point

/-- Whether no point is better, where some columns are kept. -/
def IsOptimal (c : Command Rat) (kept : Nat → Prop) (point : List Rat) : Prop :=
  c.Feasible kept point ∧
    ∀ other, c.Feasible kept other → c.handed.AsGood (c.handed.value point) (c.handed.value other)

/-- Whether an outcome is an optimal solution of what was handed over: it has the values of one
for all columns that occur. -/
def Optimizes (c : Command Rat) (o : Outcome Rat) (point : List Rat) : Prop :=
  o.status = .optimal ∧
    (∃ kept : Nat → Prop, (∀ j, occurs c.handed j = true → kept j) ∧ c.IsOptimal kept point) ∧
    ∀ j < c.columns.length, occurs c.handed j = true →
      o.values[j]? = some (some (point.getD j 0))

/-- The columns of the objective occur. -/
theorem occurs_of_mem_objective {t : Nat × Rat} (h : t ∈ c.objectiveTerms) :
    occurs c.handed t.1 = true := by
  rw [occurs, Bool.or_eq_true]
  exact .inl (List.any_eq_true.mpr ⟨t, h, beq_self_eq_true _⟩)

/-- The columns of a row occur. -/
theorem occurs_of_mem_row {r : SparseRow Rat} (hr : r ∈ c.handed.rows) {t : Nat × Rat}
    (h : t ∈ r.terms) : occurs c.handed t.1 = true := by
  rw [occurs, Bool.or_eq_true]
  exact .inr (List.any_eq_true.mpr ⟨r, hr, List.any_eq_true.mpr ⟨t, h, beq_self_eq_true _⟩⟩)

theorem value_congr (h : ∀ j, occurs c.handed j = true → point.getD j 0 = other.getD j 0) :
    c.handed.value point = c.handed.value other :=
  termSum_congr fun _ ht => h _ (occurs_of_mem_objective ht)

/-- The rows are about the columns that occur. -/
theorem holds_congr (h : ∀ j, occurs c.handed j = true → point.getD j 0 = other.getD j 0)
    {r : SparseRow Rat} (hr : r ∈ c.handed.rows) : r.Holds point ↔ r.Holds other := by
  rw [SparseRow.Holds, SparseRow.Holds, termSum_congr fun _ ht => h _ (occurs_of_mem_row hr ht)]

theorem Feasible.mono {kept fewer : Nat → Prop} (h : c.Feasible kept point)
    (hfewer : ∀ j, fewer j → kept j) : c.Feasible fewer point :=
  ⟨h.1, fun j column x hj => h.2.1 j column x (hfewer j hj), h.2.2⟩

/-! ## Reports -/

/-- A column that occurs has the value that the outcome gives it. -/
theorem value_record {values : List (Option Rat)} {j : Nat} {x : Rat}
    (hlt : j < c.columns.length) (hoccurs : occurs c.handed j = true)
    (hvalue : values[j]? = some (some x)) :
    ∃ column, (c.notice.record values).columns[j]? = some column ∧ column.value = some x := by
  have hnotice : ∃ column, c.notice.columns[j]? = some column ∧ column.isKnown = true := by
    rw [notice, List.getElem?_mapIdx, List.getElem?_eq_getElem hlt]
    refine ⟨_, rfl, ?_⟩
    show (c.columns[j].isKnown || occurs c.handed j) = true
    rw [hoccurs, Bool.or_true]
  obtain ⟨column, hcolumn, hknown⟩ := hnotice
  refine ⟨{ column with value := some x }, ?_, rfl⟩
  rw [record, List.getElem?_mapIdx, hcolumn, Option.map_some, hvalue]
  exact congrArg some (if_pos hknown)

/-- Terms are added up one by one. -/
theorem foldlM_terms {columns : List (ValuedColumn Rat)} {terms : List (Nat × Rat)}
    (h : ∀ t ∈ terms, ∃ column, columns[t.1]? = some column ∧
      column.value = some (point.getD t.1 0)) (sum : Rat) :
    terms.foldlM (fun sum t => do
        let column ← columns[t.1]?
        return sum + (← column.value) * t.2) sum = some (sum + termSum terms point) := by
  induction terms generalizing sum with
  | nil => exact congrArg some (add_zero sum).symm
  | cons t rest ih =>
    obtain ⟨⟨column, hcolumn, hvalue⟩, hrest⟩ := List.forall_mem_cons.mp h
    rw [List.foldlM_cons, hcolumn]
    show (column.value.bind fun value => some (sum + value * t.2)) >>= _ = _
    rw [hvalue, Option.bind_some]
    refine (ih hrest _).trans (congrArg some ?_)
    rw [termSum, termSum, List.map_cons, List.sum_cons]
    ring

/-- The value that is reported for an objective all of whose columns have values. -/
theorem objectiveValue?_eq (h : ∀ t ∈ c.objectiveTerms, ∃ column,
      c.columns[t.1]? = some column ∧ column.value = some (point.getD t.1 0)) :
    c.objectiveValue? =
      if c.objectiveTerms = [] then none else some (termSum c.objectiveTerms point) := by
  unfold objectiveValue?
  split
  next hnone => rw [if_pos hnone]
  next hsome =>
    rw [if_neg hsome]
    exact (foldlM_terms h 0).trans (congrArg some (zero_add _))

/-- A column that stands in has no part in what is reported. -/
theorem objectiveValue?_keepStandIn (c : Command Rat) (coeff : Rat) :
    (c.keepStandIn coeff).objectiveValue? = c.objectiveValue? := by
  unfold keepStandIn
  split <;> rfl

/-- A column that stands in is no part of the objective that was set. -/
theorem objective_keepStandIn (c : Command Rat) (coeff : Rat) :
    (c.keepStandIn coeff).objective = c.objective := by
  unfold keepStandIn
  split <;> rfl

/-- What is reported of an optimal solution: the value of its objective, nothing for an objective
without columns, and a fault where no objective was ever stated. -/
theorem solve_optimizes (hopen : c.isReleased = false) (h : c.Optimizes o point)
    (hterms : ∀ t ∈ c.objectiveTerms, t.1 < c.columns.length) :
    (c.objective = none → (c.solve (some o)).2 = .error .noObjective) ∧
      (c.objective ≠ none → ∃ answer, (c.solve (some o)).2 = .ok answer ∧
        answer.status = .optimal ∧ answer.objective =
          if c.handed.objective = [] then none else some (c.handed.value point)) := by
  obtain ⟨hstatus, _, hvalues⟩ := h
  have hreport : ((c.notice.record o.values).keepStandIn 0).objectiveValue? =
      if c.handed.objective = [] then none else some (c.handed.value point) := by
    rw [objectiveValue?_keepStandIn]
    refine objectiveValue?_eq (c := c.notice.record o.values) fun t ht => ?_
    have hoccurs := occurs_of_mem_objective (c := c) ht
    exact value_record (hterms t ht) hoccurs (hvalues t.1 (hterms t ht) hoccurs)
  have hsame : ((c.notice.record o.values).keepStandIn 0).objective = c.objective :=
    objective_keepStandIn _ 0
  unfold solve
  rw [if_neg (by simp [hopen])]
  dsimp only
  rw [if_neg (not_not.mpr hstatus)]
  constructor
  · intro hnone
    rw [hsame, hnone]
    rfl
  · intro hsome
    obtain ⟨coeffs, hcoeffs⟩ := Option.ne_none_iff_exists'.mp hsome
    rw [hsame, hcoeffs, if_neg (by simp)]
    exact ⟨_, rfl, rfl, hreport⟩

end Command

end GoalBudget
