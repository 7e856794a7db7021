import GoalBudget.Proofs.Deviation.Linear
import GoalBudget.Proofs.Program.Agreement

/-!
# What a command's solution leaves out

A command sets the values of the columns that it knows, those with a nonzero coefficient
somewhere in the program that it is handed. The other columns are idle: they keep no value, and
the solution has zero for them, whatever their bounds (`solution_record`). The rows and the
objective do not notice, so the solution of an optimal answer satisfies every row and the bounds
of every column that is not idle. It is feasible exactly when zero is within the bounds of all
idle columns. Main result: `report_feasible_iff`.

The simplex method reports a feasible solution in any case, since it starts from the lower bounds.
A column from two to five that nothing mentions is reported as zero by a command
(`idle_column_out_of_bounds`).
-/

namespace GoalBudget

open Simplex (make)

/-- A column with no nonzero coefficient, neither in the objective nor in a row. -/
def Program.Idle (p : Program Rat) (j : Nat) : Prop :=
  p.objective.getD j 0 = 0 ∧ ∀ r ∈ p.rows, r.coeffs.getD j 0 = 0

namespace Command

variable {c : Command Rat} {p : Program Rat} {point : List Rat}

/-! ## Idle columns -/

/-- A column occurs in a form if its coefficient there is not zero. -/
theorem any_terms_iff {coeffs : List Rat} {j : Nat} :
    (terms coeffs).any (·.1 == j) = true ↔ coeffs.getD j 0 ≠ 0 := by
  simp only [terms, List.any_eq_true, List.mem_map, List.mem_filter, beq_iff_eq]
  constructor
  · rintro ⟨_, ⟨⟨a, i⟩, ⟨hmem, hne⟩, rfl⟩, rfl⟩
    rw [List.mk_mem_zipIdx_iff_getElem?] at hmem
    rw [List.getD_eq_getElem?_getD, hmem]
    exact (isNonzero_iff a).mp hne
  · intro hne
    have hj : j < coeffs.length := by
      by_contra hle
      exact hne (List.getD_eq_default _ _ (not_lt.mp hle))
    refine ⟨(j, coeffs.getD j 0), ⟨(coeffs.getD j 0, j), ⟨?_, (isNonzero_iff _).mpr hne⟩, rfl⟩, rfl⟩
    rw [List.mk_mem_zipIdx_iff_getElem?]
    exact getElem?_eq_some_getD hj

/-- The columns that do not occur in what is handed over are the idle ones of the program. -/
theorem Hears.occurs_iff (h : c.Hears p) (j : Nat) : occurs c.handed j = true ↔ ¬p.Idle j := by
  have hobjective : (c.objective.getD []).getD j 0 = p.objective.getD j 0 := by
    rw [← h.objective_eq]
    cases c.objective with
    | some coeffs => rfl
    | none =>
      rw [Option.getD_none, Option.getD_none, List.getD_nil]
      by_cases hj : j < p.size
      · exact (List.getD_replicate _ hj).symm
      · exact (List.getD_eq_default _ _ (by rw [List.length_replicate]; omega)).symm
  have hrows : (c.handed.rows.any fun r => r.terms.any (·.1 == j)) = true ↔
      ∃ r ∈ p.rows, r.coeffs.getD j 0 ≠ 0 := by
    rw [← h.rows_eq, List.any_eq_true]
    simp only [handed, List.mem_map, exists_exists_and_eq_and, any_terms_iff]
  have hterms : (c.handed.objective.any (·.1 == j)) = true ↔ p.objective.getD j 0 ≠ 0 := by
    rw [← hobjective]
    exact any_terms_iff
  rw [occurs, Bool.or_eq_true, hterms, hrows, Program.Idle]
  push Not
  tauto

/-! ## What a command reports -/

/-- The values of a point in the columns that occur, and zero in the idle ones. -/
def filled (c : Command Rat) (point : List Rat) : List Rat :=
  c.blend point (List.replicate c.columns.length 0)

/-- The first solution has the values that the command sets in the columns that occur, and zero
elsewhere. -/
theorem solution_record {values : List (Option Rat)}
    (hfresh : ∀ x ∈ c.columns, marks x = (none, false))
    (hvalues : ∀ j < c.columns.length, occurs c.handed j = true →
      values[j]? = some (some (point.getD j 0))) :
    (c.notice.record values).solution = c.filled point := by
  refine List.ext_getElem? fun j => ?_
  rw [solution, record, notice, filled, blend, List.getElem?_map, List.getElem?_mapIdx,
    List.getElem?_mapIdx, List.getElem?_mapIdx, List.getElem?_replicate]
  by_cases hj : j < c.columns.length
  · obtain ⟨hvalue, hknown⟩ := Prod.mk.inj (hfresh _ (List.getElem_mem hj))
    rw [List.getElem?_eq_getElem hj, if_pos hj]
    by_cases hoccurs : occurs c.handed j = true
    · simp [hoccurs, hvalues j hj hoccurs]
    · simp only [Option.map_some, hoccurs, hknown, Bool.or_self, Option.some.injEq]
      -- a column that is not known is left alone, and it had no value before
      split
      next => simp [hvalue]
      next => simp [hvalue]
  · rw [List.getElem?_eq_none (not_lt.mp hj), if_neg hj]
    rfl

/-- An optimal outcome is reported with the solution that its values make up. -/
theorem solve_reports (hopen : c.isReleased = false) {o : Outcome Rat}
    (hstatus : o.status = .optimal) (hset : c.objective ≠ none) :
    ∃ report, (c.solve (some o)).2 = .ok report ∧ report.status = .optimal ∧
      report.solution = (c.notice.record o.values).solution := by
  have hsame : ((c.notice.record o.values).keepStandIn 0).objective = c.objective :=
    objective_keepStandIn _ 0
  obtain ⟨coeffs, hcoeffs⟩ := Option.ne_none_iff_exists'.mp hset
  unfold solve
  rw [if_neg (by simp [hopen])]
  dsimp only
  rw [if_neg (not_not.mpr hstatus), hsame, hcoeffs, if_neg (by simp)]
  refine ⟨_, rfl, rfl, ?_⟩
  show solution _ = solution _
  rw [solution, solution, columns_keepStandIn]

section
variable {kept : Nat → Prop} (h : c.Hears p) (hfeasible : c.Feasible kept point)

include h in
theorem Hears.length_filled : (c.filled point).length = p.size := by
  rw [filled, blend, List.length_mapIdx, List.length_replicate, h.length_columns]

include h hfeasible

/-- In an idle column the filled point is zero. -/
theorem Hears.getElem?_filled {j : Nat} (hj : j < p.size) :
    (c.filled point)[j]? = if occurs c.handed j then point[j]? else some 0 := by
  have hlen : point.length = (List.replicate c.columns.length (0 : Rat)).length := by
    rw [List.length_replicate]
    exact hfeasible.1
  have hlt : j < c.columns.length := by rwa [h.length_columns]
  rw [filled, getElem?_blend hlen, List.getElem?_replicate, if_pos hlt]

/-- No row notices what the idle columns are filled with. -/
theorem Hears.rows_hold_filled : ∀ r ∈ p.rows, r.Holds (c.filled point) := by
  refine (h.rows_hold_iff _).mp fun r hr => (holds_congr ?_ hr).mpr (hfeasible.2.2 r hr)
  have hlen : point.length = (List.replicate c.columns.length (0 : Rat)).length := by
    rw [List.length_replicate]
    exact hfeasible.1
  exact fun j hj => getD_blend hlen hj

/-- A column that occurs has a value within its bounds, an idle one has zero. -/
theorem Hears.filled_at (hkept : ∀ j, occurs c.handed j = true → kept j) {j : Nat}
    {column : Column Rat} {x : Rat} (hcolumn : p.columns[j]? = some column)
    (hx : (c.filled point)[j]? = some x) :
    (¬p.Idle j → column.Allows x) ∧ (p.Idle j → x = 0) := by
  rw [h.getElem?_filled hfeasible (List.getElem?_eq_some_iff.mp hcolumn).1] at hx
  rw [← h.occurs_iff]
  constructor
  · intro hoccurs
    rw [if_pos hoccurs] at hx
    obtain ⟨valued, hvalued, rfl⟩ := h.getElem?_columns.mp hcolumn
    exact hfeasible.2.1 j valued x (hkept j hoccurs) hvalued hx
  · intro hidle
    rw [if_neg fun hoccurs => (h.occurs_iff j).mp hoccurs hidle] at hx
    exact (Option.some.inj hx).symm

/-- Only the bounds of idle columns are left to ask about. -/
theorem Hears.feasible_filled_iff (hkept : ∀ j, occurs c.handed j = true → kept j) :
    p.Feasible (c.filled point) ↔
      ∀ j column, p.columns[j]? = some column → p.Idle j → column.Allows 0 := by
  rw [Program.feasible_iff_at, and_iff_right h.length_filled,
    and_iff_left (h.rows_hold_filled hfeasible)]
  constructor
  · intro hall j column hcolumn hidle
    have hx : (c.filled point)[j]? = some ((c.filled point).getD j 0) := by
      refine getElem?_eq_some_getD ?_
      rw [h.length_filled]
      exact (List.getElem?_eq_some_iff.mp hcolumn).1
    rw [← (h.filled_at hfeasible hkept hcolumn hx).2 hidle]
    exact hall j column _ hcolumn hx
  · intro hzero j column x hcolumn hx
    obtain ⟨hbusy, hidle⟩ := h.filled_at hfeasible hkept hcolumn hx
    by_cases hj : p.Idle j
    · rw [hidle hj]
      exact hzero j column hcolumn hj
    · exact hbusy hj

end

end Command

/-- What a command reports of an optimal solution, once an objective was stated: every row holds,
the columns that are not idle are within their bounds, and the idle ones are zero. So the solution
is feasible exactly when zero is allowed in every idle column. With tolerance zero the simplex
method reports a feasible solution of the same program in any case. -/
theorem report_feasible_iff {columns maxPivots : Int} {tolerance : Rat} {calls : List (Call Rat)}
    {s : Simplex Rat}
    (h : (make columns maxPivots tolerance >>= fun start => calls.foldlM Simplex.call start) =
      .ok s) :
    let c := Command.afterCalls columns.toNat calls
    Command.TakesAll columns.toNat calls ∧
    (∀ outcome point, c.Optimizes outcome point → c.objective ≠ none →
      ∃ report, (c.solve (some outcome)).2 = .ok report ∧ report.status = .optimal ∧
        report.solution.length = s.program.size ∧
        (∀ r ∈ s.program.rows, r.Holds report.solution) ∧
        (∀ j column x, s.program.columns[j]? = some column → report.solution[j]? = some x →
          (¬s.program.Idle j → column.Allows x) ∧ (s.program.Idle j → x = 0)) ∧
        (s.program.Feasible report.solution ↔
          ∀ j column, s.program.columns[j]? = some column → s.program.Idle j →
            column.Allows 0)) ∧
    (1 ≤ columns → tolerance = 0 → ∀ answer, s.solve = .ok answer → answer.status = .optimal →
      s.program.Feasible answer.solution) := by
  intro c
  obtain ⟨start, hmake, hcalls⟩ := bind_eq_ok.mp h
  have hs : Simplex.Stated columns.toNat maxPivots tolerance s :=
    foldlM_invariant _ (fun _ _ _ _ hs hcall => hs.call hcall) (Simplex.stated_make hmake) hcalls
  have hears : c.Hears s.program :=
    Command.hears_afterCalls (Simplex.program_make hmake) hcalls
  refine ⟨Command.takesAll_of_taken (Simplex.program_make hmake) hcalls, ?_, ?_⟩
  -- The command records an amount for every column that occurs; the others are reported as zero.
  · intro outcome point hoptimizes hset
    obtain ⟨hstatus, ⟨kept, hkept, hfeasible, _⟩, hvalues⟩ := hoptimizes
    obtain ⟨report, hreport, hfound, hsolution⟩ :=
      Command.solve_reports hears.isOpen hstatus hset
    rw [Command.solution_record (Command.marks_afterCalls _ _) hvalues] at hsolution
    refine ⟨report, hreport, hfound, ?_⟩
    rw [hsolution]
    exact ⟨hears.length_filled, hears.rows_hold_filled hfeasible,
      fun _ _ _ => hears.filled_at hfeasible hkept, hears.feasible_filled_iff hfeasible hkept⟩
  · intro hcount htolerance answer hanswer hstatus
    exact (Simplex.isOptimal_of_solve hs.continuous (by rw [hs.size_eq]; omega)
      (hs.tolerance_eq.trans htolerance) hanswer hstatus).1.1

/-- The first of two columns has bounds only, the second is to be small but at least three. -/
def boundsOnly (lower : Rat) : List (Call Rat) :=
  [.objective [0, 1] false, .row ⟨[0, 1], .atLeast, 3⟩, .bounds 0 lower (.upTo 5)]

/-- The simplex method that has heard them. -/
def boundsOnlyStated (lower : Rat) : Simplex Rat where
  program := ⟨[⟨lower, .upTo 5, false⟩, ⟨0, .endless, false⟩], [0, 1], false,
    [⟨[0, 1], .atLeast, 3⟩]⟩
  maxPivots := 10
  tolerance := 0

theorem stated_boundsOnly (lower : Rat) :
    (make 2 10 0 >>= fun start => (boundsOnly lower).foldlM Simplex.call start) =
      .ok (boundsOnlyStated lower) := rfl

/-- A command has to set the second column only. -/
theorem optimizes_boundsOnly {lower : Rat} (h : lower ≤ 5) :
    (Command.afterCalls 2 (boundsOnly lower)).Optimizes ⟨.optimal, [none, some 3]⟩ [lower, 3] := by
  have hears : (Command.afterCalls 2 (boundsOnly lower)).Hears (boundsOnlyStated lower).program :=
    ⟨rfl, rfl, rfl, rfl, rfl, rfl⟩
  have hworth : dot [0, 1] [lower, 3] = 3 := by simp [dot]
  have hoptimal : (boundsOnlyStated lower).program.IsOptimal [lower, 3] := by
    constructor
    · rw [Program.feasible_iff_at]
      refine ⟨rfl, ?_, List.forall_mem_singleton.mpr hworth.ge⟩
      intro j column x hcolumn hx
      rcases j with _ | _ | j
      · cases hcolumn
        cases hx
        exact ⟨le_refl _, h, fun hwhole => absurd hwhole Bool.false_ne_true⟩
      · cases hcolumn
        cases hx
        exact ⟨by norm_num, trivial, fun hwhole => absurd hwhole Bool.false_ne_true⟩
      · cases hcolumn
    · intro other hother
      exact hworth.le.trans (hother.2.2 _ (List.mem_singleton.mpr rfl))
  refine ⟨rfl, ⟨fun _ => True, fun _ _ => trivial, (hears.isOptimal_iff _).mpr hoptimal⟩, ?_⟩
  intro j hj hoccurs
  rcases j with _ | _ | j
  · have hidle : (boundsOnlyStated lower).program.Idle 0 :=
      ⟨rfl, List.forall_mem_singleton.mpr rfl⟩
    exact absurd hidle ((hears.occurs_iff 0).mp hoccurs)
  · rfl
  · exact absurd hj (Nat.not_lt.mpr (Nat.le_add_left 2 j))

/-- The first column may be as low as minus one: the command reports it as zero, which is within
its bounds, the simplex method as minus one. -/
theorem report_feasible_iff_boundsOnly :
    (make 2 10 0 >>= fun start => (boundsOnly (-1)).foldlM Simplex.call start) =
        .ok (boundsOnlyStated (-1)) ∧
      (Command.afterCalls 2 (boundsOnly (-1))).Optimizes ⟨.optimal, [none, some 3]⟩ [-1, 3] ∧
      ∃ answer report, (boundsOnlyStated (-1)).solve = .ok answer ∧ answer.solution = [-1, 3] ∧
        (boundsOnlyStated (-1)).program.Feasible answer.solution ∧
        ((Command.afterCalls 2 (boundsOnly (-1))).solve (some ⟨.optimal, [none, some 3]⟩)).2 =
          .ok report ∧ report.solution = [0, 3] ∧
        (boundsOnlyStated (-1)).program.Feasible report.solution := by
  have hrun : ((boundsOnlyStated (-1)).solve.toOption.map fun a => (a.status, a.solution)) =
      some (.optimal, [-1, 3]) := by decide +kernel
  obtain ⟨answer, hanswer, hreads⟩ := exists_of_toOption_map hrun
  rw [Prod.mk.injEq] at hreads
  have hoptimizes : (Command.afterCalls 2 (boundsOnly (-1))).Optimizes ⟨.optimal, [none, some 3]⟩
      [-1, 3] := optimizes_boundsOnly (by norm_num)
  obtain ⟨_, hreports, hpivots⟩ := report_feasible_iff (stated_boundsOnly (-1))
  obtain ⟨report, hreport, _, _, _, _, hiff⟩ := hreports _ _ hoptimizes nofun
  have hsolution : report.solution = [0, 3] := by
    cases hreport
    decide
  refine ⟨stated_boundsOnly (-1), hoptimizes, answer, report, hanswer, hreads.2,
    hpivots (by decide) rfl answer hanswer hreads.1, hreport, hsolution, hiff.mpr ?_⟩
  intro j column hcolumn hidle
  rcases j with _ | _ | j
  · cases hcolumn
    exact ⟨by norm_num, by norm_num [Limit.Allows], nofun⟩
  · exact absurd hidle.1 (by decide)
  · cases hcolumn

/-- If the first column is at least two, the command reports it as zero all the same. -/
theorem idle_column_out_of_bounds :
    (make 2 10 0 >>= fun start => (boundsOnly 2).foldlM Simplex.call start) =
        .ok (boundsOnlyStated 2) ∧
      (Command.afterCalls 2 (boundsOnly 2)).Optimizes ⟨.optimal, [none, some 3]⟩ [2, 3] ∧
      (((Command.afterCalls 2 (boundsOnly 2)).solve
        (some ⟨.optimal, [none, some 3]⟩)).2.toOption.map fun r => (r.status, r.solution)) =
        some (.optimal, [0, 3]) ∧
      ¬(boundsOnlyStated 2).program.Feasible [0, 3] ∧
      ((boundsOnlyStated 2).solve.toOption.map fun a => (a.status, a.solution)) =
        some (.optimal, [2, 3]) := by
  refine ⟨stated_boundsOnly 2, optimizes_boundsOnly (by norm_num), by decide +kernel, ?_,
    by decide +kernel⟩
  intro hfeasible
  rw [Program.feasible_iff_at] at hfeasible
  have hfirst := hfeasible.2.1 0 _ _ rfl rfl
  exact absurd hfirst.1 (by norm_num)

end GoalBudget
