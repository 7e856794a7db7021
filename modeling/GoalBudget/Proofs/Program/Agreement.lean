import GoalBudget.Proofs.Program.Handed
import GoalBudget.Proofs.Simplex.Answer

/-!
# Two solvers that heard the same

The simplex method keeps a program with a coefficient for every column; a command collects the
same statements and is handed what is left of them without zeros. `Command.Hears` relates the
two. It holds before anything is said and is kept by every statement that the simplex method
takes, which the command then takes as well (`Command.Hears.call`), so it holds of all that can
be said to both (`Command.hears_afterCalls`).

From it follows that the two work on the same program: the same points are feasible, and they
are worth the same. So an optimal answer of the one is worth as much as one of the other. It is
reported with the same objective unless the objective has no column: then the simplex method
reports zero, and a command nothing, or a fault if no objective was ever stated. Main result:
`solvers_agree`.
-/

namespace GoalBudget

open Simplex (make)

namespace Command

variable {c : Command Rat} {p : Program Rat} {point other : List Rat}

/-! ## What was heard -/

/-- Whether a command has collected a program, in which it may be that no objective was stated
so far. -/
structure Hears (c : Command Rat) (p : Program Rat) : Prop where
  size_eq : c.size = p.size
  columns_eq : c.columns.map (·.toColumn) = p.columns
  objective_eq : c.objective.getD (List.replicate p.size 0) = p.objective
  maximize_eq : c.maximize = p.maximize
  rows_eq : c.rows = p.rows
  /-- The command was not let go. -/
  isOpen : c.isReleased = false

/-- Before anything is said both have the same blank program. -/
theorem hears_blank (n : Nat) : (blank n : Command Rat).Hears (.blank n) := by
  have hsize : (Program.blank n : Program Rat).size = n := List.length_replicate
  constructor
  case size_eq => exact congrArg Int.ofNat hsize.symm
  case columns_eq => exact List.map_replicate
  case objective_eq => exact congrArg (List.replicate · 0) hsize
  case maximize_eq => rfl
  case rows_eq => rfl
  case isOpen => rfl

/-- A place that is not negative is that place. -/
theorem placeOf?_of_lt {n : Nat} {column : Int} (h : 0 ≤ column ∧ column < n) :
    placeOf? n column = some column.toNat := by
  unfold placeOf?
  simp only [if_neg (not_lt.mpr h.1)]
  exact if_pos h

/-- A change of a column is one of its bounds. -/
theorem map_toColumn_modify (columns : List (ValuedColumn Rat)) (i : Nat) (lower : Rat)
    (upper : Limit Rat) :
    (columns.modify i fun x => { x with lower, upper }).map (·.toColumn) =
      (columns.map (·.toColumn)).modify i fun x => { x with lower, upper } := by
  refine List.ext_getElem? fun j => ?_
  rw [List.getElem?_map, List.getElem?_modify, List.getElem?_modify, List.getElem?_map]
  cases columns[j]? with
  | none => rfl
  | some x =>
    show some (if i = j then _ else x : ValuedColumn Rat).toColumn =
      some (if i = j then _ else x.toColumn)
    split <;> rfl

theorem Hears.length_columns (h : c.Hears p) : c.columns.length = p.size := by
  rw [Program.size, ← h.columns_eq, List.length_map]

/-- A statement that the simplex method takes is taken by the command too, and both still have the
same program. -/
theorem Hears.call {s s' : Simplex Rat} {statement : Call Rat} (h : c.Hears s.program)
    (hcall : s.call statement = .ok s') :
    (c.call statement).2 = .ok () ∧ (c.call statement).1.Hears s'.program := by
  unfold Simplex.call at hcall
  obtain ⟨_, hcheck, hcall⟩ := bind_eq_ok.mp hcall
  have hopen : ¬c.isReleased = true := by simp [h.isOpen]
  -- What the solver accepts has the right count, which is the only thing a command checks.
  have hcount {coeffs : List Rat} (hlen : coeffs.length = s.program.size) :
      ¬(coeffs.length : Int) ≠ c.size := by
    rw [h.size_eq, hlen]
    exact not_not.mpr rfl
  cases statement with
  | objective coeffs maximize =>
    cases hcall
    have hlen : coeffs.length = s.program.size := Simplex.checkCoeffs_eq_ok hcheck
    simp only [Command.call, if_neg hopen, if_neg (hcount hlen), true_and]
    exact { h with objective_eq := rfl, maximize_eq := rfl }
  | row row =>
    cases hcall
    have hlen : row.coeffs.length = s.program.size := Simplex.checkCoeffs_eq_ok hcheck
    simp only [Command.call, if_neg hopen, if_neg (hcount hlen), true_and]
    exact { h with rows_eq := congrArg (· ++ [row]) h.rows_eq }
  | bounds column lower upper =>
    cases hcall
    have hrange : 0 ≤ column ∧ column < s.size := by
      by_contra hout
      rw [Simplex.check, if_pos hout] at hcheck
      cases hcheck
    -- A missing upper bound is written as none on either side.
    have hupper : (if upper.isEndless then .endless else upper) = upper := by
      cases upper <;> rfl
    have hsize : (s.program.withBounds column.toNat lower upper).size = s.program.size :=
      List.length_modify ..
    have hplace : placeOf? c.columns.length column = some column.toNat := by
      rw [h.length_columns]
      exact placeOf?_of_lt hrange
    simp only [Command.call, change, hplace, hupper, true_and]
    exact {
      size_eq := h.size_eq.trans (congrArg Int.ofNat hsize.symm)
      columns_eq := by rw [map_toColumn_modify, h.columns_eq]; rfl
      objective_eq := by rw [hsize]; exact h.objective_eq
      maximize_eq := h.maximize_eq
      rows_eq := h.rows_eq
      isOpen := h.isOpen }
  -- The simplex method knows no binary columns.
  | binary column => cases hcheck

/-- By induction on the statements: what both have heard stays the same. -/
theorem hears_afterCalls {n : Nat} {start s : Simplex Rat} {calls : List (Call Rat)}
    (hstart : start.program = .blank n) (h : calls.foldlM Simplex.call start = .ok s) :
    (afterCalls n calls).Hears s.program := by
  induction calls using List.reverseRecOn generalizing s with
  | nil =>
    cases pure_eq_ok.mp h
    rw [hstart]
    exact hears_blank n
  | append_singleton before call ih =>
    rw [List.foldlM_append] at h
    obtain ⟨s', hbefore, h⟩ := bind_eq_ok.mp h
    rw [List.foldlM_cons] at h
    obtain ⟨_, hcall, h⟩ := bind_eq_ok.mp h
    cases pure_eq_ok.mp h
    rw [afterCalls, List.foldl_append]
    exact ((ih hbefore).call hcall).2

/-- Whether a command takes all of some statements, one after the other. -/
def TakesAll (n : Nat) (calls : List (Call Rat)) : Prop :=
  ∀ before call, before ++ [call] <+: calls → ((afterCalls n before).call call).2 = .ok ()

/-- What the simplex method takes a command takes. -/
theorem takesAll_of_taken {n : Nat} {start s : Simplex Rat} {calls : List (Call Rat)}
    (hstart : start.program = .blank n) (h : calls.foldlM Simplex.call start = .ok s) :
    TakesAll n calls := by
  rintro before call ⟨after, rfl⟩
  rw [List.foldlM_append, List.foldlM_append] at h
  obtain ⟨_, h, _⟩ := bind_eq_ok.mp h
  obtain ⟨_, hbefore, h⟩ := bind_eq_ok.mp h
  rw [List.foldlM_cons] at h
  obtain ⟨_, hcall, _⟩ := bind_eq_ok.mp h
  exact ((hears_afterCalls hstart hbefore).call hcall).1

/-! ## The same program -/

theorem Hears.value_eq (h : c.Hears p) (point : List Rat) :
    c.handed.value point = p.value point := by
  rw [Program.value, ← h.objective_eq, SparseProgram.value]
  show termSum (terms (c.objective.getD [])) point = _
  rw [termSum_terms]
  cases c.objective with
  | none =>
    rw [Option.getD_none, Option.getD_none, dot_eq_form, dot_eq_form, form_replicate_zero]
    rfl
  | some coeffs => rfl

theorem Hears.asGood_iff (h : c.Hears p) (a b : Rat) : c.handed.AsGood a b ↔ p.AsGood a b := by
  rw [SparseProgram.AsGood, Program.AsGood, ← h.maximize_eq]
  rfl

/-- Each column has the same bounds in both. -/
theorem Hears.getElem?_columns (h : c.Hears p) {j : Nat} {column : Column Rat} :
    p.columns[j]? = some column ↔
      ∃ valued, c.columns[j]? = some valued ∧ valued.toColumn = column := by
  rw [← h.columns_eq, List.getElem?_map, Option.map_eq_some_iff]

theorem Hears.rows_hold_iff (h : c.Hears p) (point : List Rat) :
    (∀ r ∈ c.handed.rows, r.Holds point) ↔ ∀ r ∈ p.rows, r.Holds point := by
  rw [← h.rows_eq]
  show (∀ r ∈ c.rows.map fun r => _, _) ↔ _
  rw [List.forall_mem_map]
  refine forall₂_congr fun r _ => ?_
  rw [SparseRow.Holds, Row.Holds, termSum_terms]

theorem Hears.feasible_iff (h : c.Hears p) (point : List Rat) :
    c.Feasible (fun _ => True) point ↔ p.Feasible point := by
  rw [Program.feasible_iff_at, Feasible, h.length_columns, and_congr_right_iff]
  intro _
  refine and_congr ⟨fun hat j column x hcolumn hx => ?_, fun hat j column x _ hcolumn hx => ?_⟩
    (h.rows_hold_iff point)
  · obtain ⟨valued, hvalued, rfl⟩ := h.getElem?_columns.mp hcolumn
    exact hat j valued x trivial hvalued hx
  · exact hat j column.toColumn x (h.getElem?_columns.mpr ⟨column, hcolumn, rfl⟩) hx

theorem Hears.isOptimal_iff (h : c.Hears p) (point : List Rat) :
    c.IsOptimal (fun _ => True) point ↔ p.IsOptimal point := by
  refine and_congr (h.feasible_iff point) (forall_congr' fun other => ?_)
  rw [h.feasible_iff, h.asGood_iff, h.value_eq, h.value_eq]

/-- The objective has a coefficient for every column, so its terms are about columns. -/
theorem Hears.lt_of_mem_objective (h : c.Hears p) (hp : p.Continuous) {t : Nat × Rat}
    (ht : t ∈ c.objectiveTerms) : t.1 < c.columns.length := by
  have hlt := lt_of_mem_terms ht
  rw [h.length_columns, ← hp.objective, ← h.objective_eq]
  cases hobjective : c.objective with
  | none =>
    rw [hobjective] at hlt
    exact absurd hlt (Nat.not_lt_zero _)
  | some coeffs =>
    rw [hobjective] at hlt
    exact hlt

/-! ## Optimal answers -/

/-- The values of one point in the columns that occur, and those of another in the others. -/
def blend (c : Command Rat) (point other : List Rat) : List Rat :=
  other.mapIdx fun j x => if occurs c.handed j then point.getD j 0 else x

/-- A blend has the columns that occur from one point and the others from another. -/
theorem getElem?_blend {j : Nat} (hlen : point.length = other.length) :
    (c.blend point other)[j]? = if occurs c.handed j then point[j]? else other[j]? := by
  rw [blend, List.getElem?_mapIdx]
  by_cases hj : j < other.length
  · rw [List.getElem?_eq_getElem hj, List.getElem?_eq_getElem (hlen ▸ hj), Option.map_some,
      List.getD_eq_getElem _ _ (hlen ▸ hj)]
    split <;> rfl
  · rw [List.getElem?_eq_none (not_lt.mp hj), List.getElem?_eq_none (hlen ▸ not_lt.mp hj),
      Option.map_none, ite_self]

/-- In a column that occurs a blend is the first point. -/
theorem getD_blend (hlen : point.length = other.length) {j : Nat}
    (hoccurs : occurs c.handed j = true) :
    (c.blend point other).getD j 0 = point.getD j 0 := by
  rw [List.getD_eq_getElem?_getD, getElem?_blend hlen, if_pos hoccurs, List.getD_eq_getElem?_getD]

/-- A point that keeps the columns that occur, with the other columns filled up from a feasible
point, is feasible and worth as much. -/
theorem feasible_blend {kept : Nat → Prop} (hkept : ∀ j, occurs c.handed j = true → kept j)
    (h : c.Feasible kept point) (hother : c.Feasible (fun _ => True) other) :
    c.Feasible (fun _ => True) (c.blend point other) ∧
      c.handed.value (c.blend point other) = c.handed.value point := by
  have hlen : point.length = other.length := h.1.trans hother.1.symm
  have hsame (j : Nat) (hj : occurs c.handed j = true) := getD_blend (c := c) hlen hj
  refine ⟨⟨(List.length_mapIdx).trans hother.1, ?_, fun r hr => ?_⟩, value_congr hsame⟩
  · intro j column x _ hcolumn hx
    rw [getElem?_blend hlen] at hx
    split at hx
    next hoccurs => exact h.2.1 j column x (hkept j hoccurs) hcolumn hx
    next => exact hother.2.1 j column x trivial hcolumn hx
  · exact (holds_congr hsame hr).mpr (h.2.2 r hr)

/-- Best points are worth the same, whether all columns are kept within their bounds or only those
that occur, where there is a feasible point at all. -/
theorem Hears.value_eq_of_isOptimal (h : c.Hears p) {kept : Nat → Prop}
    (hkept : ∀ j, occurs c.handed j = true → kept j) (hpoint : c.IsOptimal kept point)
    (hother : p.IsOptimal other) : c.handed.value point = p.value other := by
  have hfeasible := (h.feasible_iff other).mpr hother.1
  obtain ⟨hblend, hworth⟩ := feasible_blend hkept hpoint.1 hfeasible
  have hle := hpoint.2 other (hfeasible.mono fun _ _ => trivial)
  have hge := hother.2 _ ((h.feasible_iff _).mp hblend)
  rw [h.asGood_iff, h.value_eq other] at hle
  rw [← h.value_eq (c.blend point other), hworth] at hge
  rw [Program.AsGood] at hle hge
  cases hsense : p.maximize with
  | true =>
    rw [hsense, if_pos rfl] at hle hge
    exact le_antisymm hge hle
  | false =>
    rw [hsense, if_neg (by simp)] at hle hge
    exact le_antisymm hle hge

end Command

namespace Simplex

/-- The simplex method starts with a blank program. -/
theorem program_make {columns maxPivots : Int} {tolerance : Rat} {s : Simplex Rat}
    (h : make columns maxPivots tolerance = .ok s) : s.program = .blank columns.toNat := by
  unfold make at h
  split at h
  next => cases h
  next =>
    cases h
    rfl

/-- A run that may make fewer than no pivots may make none. -/
theorem solve_of_maxPivots_nonpos {s : Simplex Rat} (h : s.maxPivots ≤ 0) :
    s.solve = ({ s with maxPivots := 0 } : Simplex Rat).solve := by
  have hsecond (made : Nat) : (s.maxPivots - made).toNat = ((0 : Int) - made).toNat := by omega
  have hfirst : s.maxPivots.toNat = (0 : Int).toNat := by omega
  unfold solve solveByPivots secondPhase
  simp only [hfirst, hsecond]
  rfl

/-- An optimal answer with tolerance zero, whatever number of pivots is allowed. -/
theorem isOptimal_of_solve {s : Simplex Rat} (hp : s.program.Continuous) (hsize : s.size ≠ 0)
    (htolerance : s.tolerance = 0) {answer : Answer Rat} (hanswer : s.solve = .ok answer)
    (hstatus : answer.status = .optimal) :
    s.program.IsOptimal answer.solution ∧
      answer.objective = some (s.program.value answer.solution) := by
  have htrue : ∃ limit, answer.TrueOf s.program limit := by
    by_cases hmax : 0 ≤ s.maxPivots
    · obtain ⟨found, hfound, htrue⟩ := solve_trueOf hp hsize htolerance hmax
      cases hanswer.symm.trans hfound
      exact ⟨_, htrue⟩
    · rw [solve_of_maxPivots_nonpos (not_le.mp hmax).le] at hanswer
      obtain ⟨found, hfound, htrue⟩ := solve_trueOf (s := { s with maxPivots := 0 }) hp hsize
        htolerance (le_refl 0)
      cases hanswer.symm.trans hfound
      exact ⟨_, htrue⟩
  obtain ⟨limit, htrue⟩ := htrue
  rw [Answer.TrueOf, hstatus] at htrue
  exact htrue

end Simplex

/-- Whatever the simplex method takes, a command takes as well, and then they work on the same
program: the same points are feasible, they are worth the same, and the same sense is asked for.
So where both find an optimal solution, with tolerance zero, they report the same objective, if
it has a column that counts. The objective without one is zero, and a command reports nothing
about it, or fails if it was never stated. -/
theorem solvers_agree {columns maxPivots : Int} {tolerance : Rat} (hcolumns : 1 ≤ columns)
    {calls : List (Call Rat)} {s : Simplex Rat}
    (h : (make columns maxPivots tolerance >>= fun start => calls.foldlM Simplex.call start) =
      .ok s) :
    let c := Command.afterCalls columns.toNat calls
    Command.TakesAll columns.toNat calls ∧
    (∀ point, c.Feasible (fun _ => True) point ↔ s.program.Feasible point) ∧
    (∀ point, c.handed.value point = s.program.value point) ∧
    c.handed.maximize = s.program.maximize ∧
    (tolerance = 0 → ∀ outcome point answer, c.Optimizes outcome point → s.solve = .ok answer →
      answer.status = .optimal →
      if c.handed.objective = [] then
        answer.objective = some 0 ∧
        (c.objective = none → (c.solve (some outcome)).2 = .error .noObjective) ∧
        (c.objective ≠ none → ∃ report, (c.solve (some outcome)).2 = .ok report ∧
          report.status = .optimal ∧ report.objective = none)
      else ∃ report, (c.solve (some outcome)).2 = .ok report ∧ report.status = .optimal ∧
        report.objective = answer.objective) := by
  intro c
  obtain ⟨start, hmake, hcalls⟩ := bind_eq_ok.mp h
  have hstated := Simplex.stated_make hmake
  have hblank := Simplex.program_make hmake
  have hs : Simplex.Stated columns.toNat maxPivots tolerance s :=
    foldlM_invariant _ (fun _ _ _ _ hs hcall => hs.call hcall) hstated hcalls
  have hears : c.Hears s.program := Command.hears_afterCalls hblank hcalls
  refine ⟨Command.takesAll_of_taken hblank hcalls, hears.feasible_iff, hears.value_eq,
    hears.maximize_eq, ?_⟩
  -- From here on both have been solved; the two points are optimal for one program.
  intro htolerance outcome point answer hoptimizes hanswer hstatus
  obtain ⟨hoptimal, hobjective⟩ := Simplex.isOptimal_of_solve hs.continuous
    (by rw [hs.size_eq]; omega) (hs.tolerance_eq.trans htolerance) hanswer hstatus
  obtain ⟨hnone, hsome⟩ := Command.solve_optimizes hears.isOpen hoptimizes
    fun t ht => hears.lt_of_mem_objective hs.continuous ht
  obtain ⟨_, ⟨kept, hkept, hpoint⟩, _⟩ := hoptimizes
  have hsame := hears.value_eq_of_isOptimal hkept hpoint hoptimal
  split
  -- No coefficient is left in what is handed over: the value is zero, which the command reports as
  -- nothing.
  next hempty =>
    refine ⟨?_, hnone, fun hset => ?_⟩
    · rw [hobjective, ← hsame, SparseProgram.value, hempty]
      rfl
    · obtain ⟨report, hreport, hfound, hvalue⟩ := hsome hset
      exact ⟨report, hreport, hfound, hvalue.trans (if_pos hempty)⟩
  next hcounts =>
    -- Terms are left, so an objective has been set.
    have hset : c.objective ≠ none := by
      intro hunset
      refine hcounts ?_
      show Command.terms (c.objective.getD []) = []
      rw [hunset]
      rfl
    obtain ⟨report, hreport, hfound, hvalue⟩ := hsome hset
    refine ⟨report, hreport, hfound, ?_⟩
    rw [hvalue, if_neg hcounts, hobjective, hsame]

/-- Statements with a coefficient of zero, a row to be turned and a lower bound. -/
def threeRows : List (Call Rat) :=
  [.objective [3, 2] true, .row ⟨[1, 1], .atMost, 4⟩, .row ⟨[-1, -3], .atMost, -6⟩,
    .row ⟨[1, 0], .atLeast, 2⟩, .bounds 0 1 (.upTo 3)]

/-- The simplex method that has heard them. -/
def threeRowsStated : Simplex Rat where
  program := ⟨[⟨1, .upTo 3, false⟩, ⟨0, .endless, false⟩], [3, 2], true,
    [⟨[1, 1], .atMost, 4⟩, ⟨[-1, -3], .atMost, -6⟩, ⟨[1, 0], .atLeast, 2⟩]⟩
  maxPivots := 10
  tolerance := 0

/-- Both solvers find the objective of eleven at three and one. -/
theorem solvers_agree_threeRows :
    (1 : Int) ≤ 2 ∧
      (make 2 10 0 >>= fun start => threeRows.foldlM Simplex.call start) = .ok threeRowsStated ∧
      (Command.afterCalls 2 threeRows).Optimizes ⟨.optimal, [some 3, some 1]⟩ [3, 1] ∧
      ∃ answer report, threeRowsStated.solve = .ok answer ∧ answer.status = .optimal ∧
        ((Command.afterCalls 2 threeRows).solve (some ⟨.optimal, [some 3, some 1]⟩)).2 =
          .ok report ∧ answer.objective = some 11 ∧ report.objective = some 11 := by
  have hstated : (make 2 10 0 >>= fun start => threeRows.foldlM Simplex.call start) =
      .ok threeRowsStated := rfl
  have hrun : (threeRowsStated.solve.toOption.map fun a => (a.status, a.solution, a.objective)) =
      some (.optimal, [3, 1], some 11) := by decide +kernel
  obtain ⟨answer, hanswer, hreads⟩ := exists_of_toOption_map hrun
  simp only [Prod.mk.injEq] at hreads
  obtain ⟨hstatus, hsolution, hobjective⟩ := hreads
  have hears : (Command.afterCalls 2 threeRows).Hears threeRowsStated.program :=
    ⟨rfl, rfl, rfl, rfl, rfl, rfl⟩
  have hoptimal := (Simplex.isOptimal_of_solve (s := threeRowsStated)
    ⟨rfl, by decide, by decide⟩ (by decide) rfl hanswer hstatus).1
  rw [hsolution] at hoptimal
  have hoptimizes : (Command.afterCalls 2 threeRows).Optimizes ⟨.optimal, [some 3, some 1]⟩
      [3, 1] := by
    refine ⟨rfl, ⟨fun _ => True, fun _ _ => trivial, (hears.isOptimal_iff _).mpr hoptimal⟩, ?_⟩
    decide
  obtain ⟨_, _, _, _, hagree⟩ := solvers_agree (by decide) hstated
  have hreport := hagree rfl _ _ answer hoptimizes hanswer hstatus
  rw [if_neg (by decide)] at hreport
  obtain ⟨report, hreport, _, hsame⟩ := hreport
  exact ⟨by decide, hstated, hoptimizes, answer, report, hanswer, hstatus, hreport, hobjective,
    hsame.trans hobjective⟩

/-- The simplex method that has heard of a column that is at least two, and of no objective. -/
def atLeastTwo : Simplex Rat where
  program := ⟨[⟨0, .endless, false⟩], [0], false, [⟨[1], .atLeast, 2⟩]⟩
  maxPivots := 10
  tolerance := 0

/-- Without an objective the simplex method reports zero of an optimal solution. A command that has
found the same one fails if no objective was stated, and reports nothing if zero was. -/
theorem objective_unreported :
    let row : Call Rat := .row ⟨[1], .atLeast, 2⟩
    let unstated := Command.afterCalls 1 [row]
    let zero := Command.afterCalls 1 [.objective [0] false, row]
    let outcome : Outcome Rat := ⟨.optimal, [some 2]⟩
    (make 1 10 0 >>= fun start => [row].foldlM Simplex.call start) = .ok atLeastTwo ∧
      (make 1 10 0 >>= fun start => [.objective [0] false, row].foldlM Simplex.call start) =
        .ok atLeastTwo ∧
      (atLeastTwo.solve.toOption.map fun a => (a.status, a.solution, a.objective)) =
        some (.optimal, [2], some 0) ∧
      unstated.Optimizes outcome [2] ∧ (unstated.solve (some outcome)).2 = .error .noObjective ∧
      zero.Optimizes outcome [2] ∧
        (zero.solve (some outcome)).2 = .ok ⟨.optimal, [2], none, 0⟩ := by
  intro row unstated zero outcome
  have hrun : (atLeastTwo.solve.toOption.map fun a => (a.status, a.solution, a.objective)) =
      some (.optimal, [2], some 0) := by decide +kernel
  obtain ⟨answer, hanswer, hreads⟩ := exists_of_toOption_map hrun
  simp only [Prod.mk.injEq] at hreads
  have hoptimal := (Simplex.isOptimal_of_solve (s := atLeastTwo) ⟨rfl, by decide, by decide⟩
    (by decide) rfl hanswer hreads.1).1
  rw [hreads.2.1] at hoptimal
  have hoptimizes {c : Command Rat} (hears : c.Hears atLeastTwo.program)
      (hvalues : ∀ j < c.columns.length, Command.occurs c.handed j = true →
        outcome.values[j]? = some (some (([2] : List Rat).getD j 0))) : c.Optimizes outcome [2] :=
    ⟨rfl, ⟨fun _ => True, fun _ _ => trivial, (hears.isOptimal_iff _).mpr hoptimal⟩, hvalues⟩
  refine ⟨rfl, rfl, hrun, ?_, rfl, ?_, rfl⟩
  · exact hoptimizes ⟨rfl, rfl, rfl, rfl, rfl, rfl⟩ (by decide)
  · exact hoptimizes ⟨rfl, rfl, rfl, rfl, rfl, rfl⟩ (by decide)

end GoalBudget
