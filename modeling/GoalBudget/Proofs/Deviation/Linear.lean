import GoalBudget.Deviation.Solve
import GoalBudget.Proofs.Deviation.Preemptive
import GoalBudget.Proofs.Program.Stated
import GoalBudget.Proofs.Simplex.Bounds

/-!
# Deviations as a linear program: nothing negative

Every column of the program has a lower bound that is not negative and an upper bound that is not
below it (`isAmountCall_linearCalls`). The simplex method holds every value within its bounds, so it
gives no variable anything negative (`solution_nonneg`). A command is outside the library, and the
one thing asked of it is that an optimal answer keeps to these lower bounds (`KeepsLowerBounds`).

What a command sets is taken over into the columns of its program and read from there. No column has
a value before that (`noValues_afterCalls`), so whatever is reported is a value that the command has
set, or zero where it has set none (`mem_solution_of_solve`).

Main result: `solveLinear_values_nonneg`.
-/

namespace GoalBudget

/-! ## Runs of backends -/

/-- A run that comes to an answer has made all statements and solved. -/
theorem Backend.answer_runFrom {b : Backend Rat} {taken calls : List (Call Rat)}
    {answer : Answer Rat} (h : (b.runFrom taken calls).answer = .ok answer) :
    b.solve (taken ++ calls) = .ok answer := by
  induction calls generalizing taken with
  | nil =>
    rw [List.append_nil]
    exact h
  | cons c rest ih =>
    unfold runFrom at h
    split at h
    next => cases h
    next =>
      have hrest := ih h
      rwa [List.append_assoc] at hrest

/-- The answer of a run is that to its statements. -/
theorem Backend.answer_run {b : Backend Rat} {calls : List (Call Rat)} {answer : Answer Rat}
    (h : (b.run calls).answer = .ok answer) : b.solve calls = .ok answer :=
  answer_runFrom h

/-! ## The simplex method within bounds -/

/-- A column of amounts: nothing negative is allowed in it, and something is. -/
def Column.IsAmount (c : Column Rat) : Prop := 0 ≤ c.lower ∧ c.upper.Allows c.lower

theorem Column.hold_nonneg {c : Column Rat} (h : c.IsAmount) (y : Rat) :
    0 ≤ c.upper.hold (greatest (c.lower + y) c.lower) := by
  rw [greatest_eq_max]
  have hlow : 0 ≤ max (c.lower + y) c.lower := h.1.trans (le_max_right _ _)
  cases hupper : c.upper with
  | upTo bound =>
    have hbound : c.lower ≤ bound := by
      have := h.2
      rwa [hupper] at this
    rw [Limit.hold_upTo]
    exact le_min hlow (h.1.trans hbound)
  | endless => exact hlow

namespace Simplex

variable {s : Simplex Rat} {answer : Answer Rat}

theorem withinBounds_nonneg {columns : List (Column Rat)} {distances : List Rat}
    (h : ∀ c ∈ columns, c.IsAmount) (x : Rat) (hx : x ∈ withinBounds columns distances) :
    0 ≤ x := by
  unfold withinBounds at hx
  rw [← List.map_uncurry_zip_eq_zipWith] at hx
  obtain ⟨pair, hpair, rfl⟩ := List.mem_map.mp hx
  exact Column.hold_nonneg (h pair.1 (List.of_mem_zip (show (pair.1, pair.2) ∈ _ from hpair)).1) _

theorem solveByBounds_nonneg {p : Program Rat} (h : ∀ c ∈ p.columns, c.IsAmount) (x : Rat)
    (hx : x ∈ (solveByBounds p).solution) : 0 ≤ x := by
  obtain ⟨c, hc, rfl | hupper⟩ := bound_of_mem_solveByBounds hx
  · exact (h c hc).1
  · have hbound := (h c hc).2
    rw [hupper] at hbound
    exact (h c hc).1.trans hbound

/-- With rows they are held within the bounds. -/
theorem solveByPivots_nonneg (h : ∀ c ∈ s.program.columns, c.IsAmount)
    (hsolve : s.solveByPivots = .ok answer) (x : Rat) (hx : x ∈ answer.solution) : 0 ≤ x := by
  unfold solveByPivots at hsolve
  obtain ⟨first, _, hsolve⟩ := bind_eq_ok.mp hsolve
  split at hsolve
  next =>
    cases hsolve
    cases hx
  next =>
    split at hsolve
    next =>
      cases hsolve
      cases hx
    next =>
      obtain ⟨t, _, hsolve⟩ := bind_eq_ok.mp hsolve
      unfold secondPhase at hsolve
      obtain ⟨second, _, hsolve⟩ := bind_eq_ok.mp hsolve
      split at hsolve
      next =>
        cases hsolve
        cases hx
      next =>
        -- only an optimal end has a solution, and that is held within the bounds
        cases hsolve
        exact withinBounds_nonneg h x hx

theorem solution_nonneg (h : ∀ c ∈ s.program.columns, c.IsAmount) (hsolve : s.solve = .ok answer)
    (x : Rat) (hx : x ∈ answer.solution) : 0 ≤ x := by
  unfold solve at hsolve
  split at hsolve
  next =>
    cases hsolve
    cases hx
  next =>
    split at hsolve
    next =>
      cases hsolve
      cases hx
    next =>
      split at hsolve
      next =>
        cases hsolve
        exact solveByBounds_nonneg h x hx
      next => exact solveByPivots_nonneg h hsolve x hx

end Simplex

/-! ## Commands -/

namespace Command

/-- The value that a column was given last, and whether it is known. -/
def marks (x : ValuedColumn Rat) : Option Rat × Bool := (x.value, x.isKnown)

/-- A change that leaves the marks of a column leaves those of all. -/
theorem map_marks_change {c : Command Rat} {column : Int} {f : ValuedColumn Rat → ValuedColumn Rat}
    (hf : ∀ x, marks (f x) = marks x) :
    (c.change column f).1.columns.map marks = c.columns.map marks := by
  unfold change
  split
  next => rfl
  next i _ =>
    refine List.ext_getElem? fun j => ?_
    rw [List.getElem?_map, List.getElem?_modify, List.getElem?_map]
    cases c.columns[j]? with
    | none => rfl
    | some x =>
      show some (marks (if i = j then f x else x)) = some (marks x)
      split
      next => rw [hf]
      next => rfl

theorem map_marks_call (c : Command Rat) (call : Call Rat) :
    (c.call call).1.columns.map marks = c.columns.map marks := by
  cases call with
  | objective coeffs maximize =>
    unfold Command.call
    dsimp only
    split
    next => rfl
    next => split <;> rfl
  | row row =>
    unfold Command.call
    dsimp only
    split
    next => rfl
    next => split <;> rfl
  | bounds column lower upper => exact map_marks_change fun _ => rfl
  | binary column => exact map_marks_change fun _ => rfl

/-- Statements give no column a value and make none known. -/
theorem marks_afterCalls (n : Nat) (calls : List (Call Rat)) :
    ∀ x ∈ (afterCalls n calls).columns, marks x = (none, false) := by
  have hsame : (afterCalls n calls).columns.map marks = List.replicate n (none, false) := by
    refine List.foldlRecOn calls _
      (motive := fun c : Command Rat => c.columns.map marks = List.replicate n (none, false)) ?_ ?_
    · exact List.map_replicate
    · intro c hc call _
      rw [map_marks_call, hc]
  intro x hx
  exact List.eq_of_mem_replicate (hsame ▸ List.mem_map_of_mem hx)

/-- No column has a value from an earlier run. -/
def NoValues (c : Command Rat) : Prop := ∀ x ∈ c.columns, x.value = none

/-- No column has a value before a command has run. -/
theorem noValues_afterCalls (n : Nat) (calls : List (Call Rat)) :
    (afterCalls n calls).NoValues :=
  fun x hx => (Prod.mk.inj (marks_afterCalls n calls x hx)).1

theorem noValues_notice {c : Command Rat} (h : c.NoValues) : c.notice.NoValues := by
  intro x hx
  obtain ⟨i, hi⟩ := List.mem_iff_getElem?.mp hx
  rw [notice, List.getElem?_mapIdx] at hi
  obtain ⟨y, hy, rfl⟩ := Option.map_eq_some_iff.mp hi
  exact h y (List.mem_of_getElem? hy)

theorem columns_keepStandIn (c : Command Rat) (coeff : Rat) :
    (c.keepStandIn coeff).columns = c.columns := by
  unfold keepStandIn
  split <;> rfl

/-- A value that is there after a command has set its values is one of these. -/
theorem mem_values_of_record {c : Command Rat} {values : List (Option Rat)} (h : c.NoValues)
    {y : ValuedColumn Rat} {x : Rat} (hy : y ∈ (c.record values).columns) (hx : y.value = some x) :
    some x ∈ values := by
  obtain ⟨i, hi⟩ := List.mem_iff_getElem?.mp hy
  rw [record, List.getElem?_mapIdx] at hi
  obtain ⟨z, hz, rfl⟩ := Option.map_eq_some_iff.mp hi
  have hnone : z.value = none := h z (List.mem_of_getElem? hz)
  split at hx
  next v hv =>
    split at hx
    next =>
      cases hx
      exact List.mem_of_getElem? hv
    next =>
      rw [hnone] at hx
      cases hx
  next =>
    rw [hnone] at hx
    cases hx

/-- After one run every value of the solution is zero or one that the command has set. -/
theorem mem_solution_of_solve {c : Command Rat} {outcome : Option (Outcome Rat)}
    {answer : Answer Rat} (h : c.NoValues) (hsolve : (c.solve outcome).2 = .ok answer) (x : Rat)
    (hx : x ∈ answer.solution) :
    x = 0 ∨ ∃ o, outcome = some o ∧ o.status = .optimal ∧ some x ∈ o.values := by
  unfold solve at hsolve
  split at hsolve
  next => cases hsolve
  next =>
    split at hsolve
    next =>
      cases hsolve
      cases hx
    next o =>
      dsimp only at hsolve
      split at hsolve
      next =>
        cases hsolve
        cases hx
      next hstatus =>
        split at hsolve
        next => cases hsolve
        next =>
          cases hsolve
          obtain ⟨y, hy, rfl⟩ := List.mem_map.mp hx
          rw [columns_keepStandIn] at hy
          -- a column without a value is read as zero
          cases hvalue : y.value with
          | none => exact .inl rfl
          | some v =>
            exact .inr ⟨o, rfl, not_not.mp hstatus,
              mem_values_of_record (noValues_notice h) hy hvalue⟩

end Command

/-! ## The program of deviations -/

/-- An optimal answer of a command keeps to the lower bounds of the programs it is handed for
deviations: none of them is negative. It is the one thing asked of a command. -/
def KeepsLowerBounds (command : Option (SparseProgram Rat → Option (Outcome Rat))) : Prop :=
  ∀ run ∈ command, ∀ (p : DeviationProgram Rat) (handed : SparseProgram Rat)
    (outcome : Outcome Rat), p.handedOver? = some handed → run handed = some outcome →
    outcome.status = .optimal → ∀ x, some x ∈ outcome.values → 0 ≤ x

namespace DeviationProgram

variable {p : DeviationProgram Rat}

/-- Whether the bounds of a statement are those of an amount. -/
def IsAmountCall : Call Rat → Prop
  | .bounds _ lower upper => 0 ≤ lower ∧ upper.Allows lower
  | _ => True

/-- Columns that are amounts stay so in the whole program. -/
theorem isAmount_ofCalls (n : Nat) {calls : List (Call Rat)} (h : ∀ c ∈ calls, IsAmountCall c) :
    ∀ c ∈ (Program.ofCalls n calls).columns, c.IsAmount :=
  Program.forall_columns_ofCalls ⟨le_refl _, trivial⟩ (fun _ _ _ hcall _ _ => h _ hcall)
    fun _ _ => ⟨le_refl _, zero_le_one⟩

/-- What holds of every statement, kind by kind: the penalties, the bounds of a variable, the two
bounds and the row of a goal, and the budget row. -/
theorem forall_linearCalls {P : Call Rat → Prop} (hpenalties : P (.objective p.penalties false))
    (hvars : ∀ (i : Nat) (v : Variable Rat), p.vars[i]? = some v →
      P (.bounds i v.minimum (.upTo (v.upperBound p.income))))
    (hgoals : ∀ (j : Nat) (g : DeviationGoal Rat), p.goals[j]? = some g →
      P (.bounds ↑(p.vars.length + j) 0 (.upTo (greatest g.target p.income))) ∧
      P (.bounds ↑(p.vars.length + p.goals.length + j) 0 (.upTo p.income)) ∧
      P (.row ⟨sparse p.width [(g.index, 1), (p.vars.length + j, 1),
        (p.vars.length + p.goals.length + j, -1)], .equal, g.target⟩))
    (hbudget : P (.row ⟨p.vars.map (fun _ => 1) ++ List.replicate (2 * p.goals.length) 0, .atMost,
      p.income⟩)) : ∀ call ∈ p.linearCalls, P call := by
  intro call hcall
  unfold linearCalls at hcall
  simp only [List.mem_append, List.mem_singleton, List.mem_map, List.mem_flatMap] at hcall
  rcases hcall with ((rfl | ⟨⟨v, i⟩, hv, rfl⟩) | ⟨⟨g, j⟩, hg, hcall⟩) | rfl
  · exact hpenalties
  · exact hvars i v (List.mk_mem_zipIdx_iff_getElem?.mp hv)
  · obtain ⟨hbelow, habove, hrow⟩ := hgoals j g (List.mk_mem_zipIdx_iff_getElem?.mp hg)
    simp only [goalCalls, List.mem_cons, List.not_mem_nil, or_false] at hcall
    rcases hcall with rfl | rfl | rfl
    · exact hbelow
    · exact habove
    · exact hrow
  · exact hbudget

/-- All bounds of the program are those of amounts. -/
theorem isAmountCall_linearCalls (hincome : 0 ≤ p.income) :
    ∀ c ∈ p.linearCalls, IsAmountCall c := by
  refine forall_linearCalls trivial ?_ ?_ trivial
  · intro i v _
    exact ⟨v.minimum_nonneg, v.minimum_le_upperBound p.income⟩
  · intro j g _
    refine ⟨⟨le_refl _, ?_⟩, ⟨le_refl _, hincome⟩, trivial⟩
    rw [greatest_eq_max]
    exact hincome.trans (le_max_right _ _)

/-- No answer has a negative value. -/
theorem answer_nonneg {kind : String} {command : Option (SparseProgram Rat → Option (Outcome Rat))}
    {b : Backend Rat} {answer : Answer Rat} (hcommand : KeepsLowerBounds command)
    (hincome : 0 ≤ p.income) (hhanded : (p.handedOver?).isSome = true)
    (hb : lpBackend kind command p.width = .ok b) (h : (b.run p.linearCalls).answer = .ok answer)
    (x : Rat) (hx : x ∈ answer.solution) : 0 ≤ x := by
  have hsolve := Backend.answer_run h
  unfold lpBackend at hb
  split at hb
  next =>
    cases hb
    exact Simplex.solution_nonneg
      (isAmount_ofCalls p.width (isAmountCall_linearCalls hincome)) hsolve x hx
  next =>
    split at hb
    next =>
      split at hb
      next run =>
        cases hb
        -- the command sees the program that was stated, so its promise applies
        have hprogram : p.handedOver? = some (Command.afterCalls p.width p.linearCalls).handed := by
          unfold handedOver? at hhanded ⊢
          split
          next hnone =>
            rw [if_pos hnone] at hhanded
            cases hhanded
          next => rfl
        rcases Command.mem_solution_of_solve (Command.noValues_afterCalls _ _) hsolve x hx with
          rfl | ⟨o, ho, hstatus, hvalue⟩
        · exact le_refl 0
        · exact hcommand run rfl p _ o hprogram ho hstatus x hvalue
      next => cases hb
    next => cases hb

/-- A program with variables is solved only if its lower bounds fit into the income. -/
theorem checkMinimums_of_solveLinear {backend : Nat → Except (Fault Rat) (Backend Rat)}
    {r : DeviationResult Rat} (h : p.solveLinear backend = .ok r) :
    p.vars = [] ∨ checkMinimums p.vars p.income = .ok () := by
  unfold solveLinear at h
  split at h
  next hnil => exact .inl (List.isEmpty_iff.mp hnil)
  next =>
    obtain ⟨_, hcheck, _⟩ := bind_eq_ok.mp h
    exact .inr hcheck

/-- No variable gets anything negative. -/
theorem solveLinear_values_nonneg {kind : String}
    {command : Option (SparseProgram Rat → Option (Outcome Rat))} {r : DeviationResult Rat}
    (hcommand : KeepsLowerBounds command) (hincome : 0 ≤ p.income)
    (h : p.solveLinear (lpBackend kind command) = .ok r) :
    ∀ e ∈ r.variableValues.entries, 0 ≤ e.2 := by
  unfold solveLinear at h
  split at h
  next => exact summarize_values_nonneg (fun x hx => by cases hx) h
  next hvars =>
    obtain ⟨_, hminimums, h⟩ := bind_eq_ok.mp h
    obtain ⟨b, hb, h⟩ := bind_eq_ok.mp h
    obtain ⟨answer, hanswer, h⟩ := bind_eq_ok.mp h
    have hhanded : (p.handedOver?).isSome = true := by
      unfold handedOver?
      rw [hminimums, Bool.eq_false_of_not_eq_true hvars]
      rfl
    split at h
    next =>
      refine summarize_values_nonneg (fun x hx => ?_) h
      exact answer_nonneg hcommand hincome hhanded hb hanswer x (List.mem_of_mem_take hx)
    next => cases h

end DeviationProgram

end GoalBudget
