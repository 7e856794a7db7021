import GoalBudget.Proofs.Ladder.Outcome
import GoalBudget.Proofs.Strategy.Consultation

/-!
# Programs with ladders and their backend

The program that is stated for ladders has a column per variable and one per level. The levels take
the columns behind the variables one goal after the other, so that together they take them all
(`LadderProgram.columns_assignColumns`), and every level is stated to be zero or one
(`statedColumns_level`). So the program has as many columns as the backend was asked for, each of
them is mentioned, and no row is too long (`LadderProgram.describe_calls`).

Solving is one consultation of this program (`LadderProgram.consults`): the same program for every
backend, and the greedy run where none has a solution. What happens to the backend is said of
consultations in general.
-/

namespace GoalBudget.LadderProgram

variable {p : LadderProgram Rat} {n : Nat}

/-! ## What is stated -/

/-- The columns of goals follow one another. -/
theorem columns_assignColumns (column : Nat) (scaled : List (LadderGoal Rat × Rat)) :
    (assignColumns column scaled).flatMap (·.columns) =
      List.range' column (scaled.flatMap (·.1.levels)).length := by
  induction scaled generalizing column with
  | nil => rfl
  | cons pair rest ih =>
    rw [assignColumns, List.flatMap_cons, ih, List.flatMap_cons, List.length_append]
    exact List.range'_append_1

/-- Every level of a goal has a column. -/
theorem length_columns {column : Nat} {scaled : List (LadderGoal Rat × Rat)} {r : Rungs Rat}
    (hr : r ∈ assignColumns column scaled) : r.columns.length = r.goal.levels.length := by
  induction scaled generalizing column with
  | nil => cases hr
  | cons pair rest ih =>
    rcases List.mem_cons.mp hr with rfl | hr
    · exact List.length_range'
    · exact ih hr

/-- The rungs are those of the goals in order. -/
theorem goals_assignColumns (column : Nat) (scaled : List (LadderGoal Rat × Rat)) :
    (assignColumns column scaled).map (·.goal) = scaled.map (·.1) := by
  induction scaled generalizing column with
  | nil => rfl
  | cons pair rest ih => exact congrArg _ (ih _)

namespace Rungs

variable {r : Rungs Rat}

/-- What is stated about one level: its column, and if it asks for anything the row that does. -/
theorem statedColumns_level (condition : Prop) [Decidable condition] (column : Nat)
    (row : Row Rat) : ((.binary column : Call Rat) ::
      (if condition then [.row row] else [])).filterMap Call.statedColumn =
      [(column, ⟨0, .upTo 1, true⟩)] := by
  split <;> rfl

/-- The columns that are stated for a goal are those of its levels, each of them zero or one. -/
theorem statedColumns_calls (hlength : r.columns.length = r.goal.levels.length) :
    Program.statedColumns (r.calls n) = r.columns.map fun j => (j, ⟨0, .upTo 1, true⟩) := by
  rw [Program.statedColumns, calls, List.filterMap_append, List.filterMap_flatMap]
  simp only [statedColumns_level]
  show ((r.goal.levels.zip r.columns).flatMap fun l => [(l.2, _)]) ++ [] = _
  rw [List.append_nil, ← List.map_eq_flatMap]
  conv_rhs => rw [← List.map_snd_zip hlength.le, List.map_map]
  rfl

theorem fits_calls (hr : ∀ j ∈ r.columns, j < n) : ∀ call ∈ r.calls n, call.Fits n := by
  intro call hcall
  rcases List.mem_append.mp hcall with hcall | hcall
  · obtain ⟨l, hl, hcall⟩ := List.mem_flatMap.mp hcall
    rcases List.mem_cons.mp hcall with rfl | hcall
    · have hlt := hr l.2 (List.of_mem_zip hl).2
      exact ⟨Int.natCast_nonneg _, by omega⟩
    · split at hcall
      · cases List.mem_singleton.mp hcall
        exact length_sparse n _
      · cases hcall
  · cases List.mem_singleton.mp hcall
    exact length_sparse n _

end Rungs

/-- The columns that are stated for goals are those of their levels, one after the other. -/
theorem statedColumns_assignColumns (n column : Nat) (scaled : List (LadderGoal Rat × Rat)) :
    (Program.statedColumns ((assignColumns column scaled).flatMap (Rungs.calls n))).map Prod.fst =
      List.range' column (scaled.flatMap (·.1.levels)).length := by
  rw [← columns_assignColumns, Program.statedColumns, List.filterMap_flatMap, List.map_flatMap]
  refine List.flatMap_congr fun r hr => ?_
  show (Program.statedColumns (r.calls n)).map Prod.fst = r.columns
  rw [Rungs.statedColumns_calls (length_columns hr), List.map_map]
  exact List.map_id _

/-- The rungs of a program are the goals with the columns behind the variables. -/
theorem rungs_eq (p : LadderProgram Rat) : ∃ scaled,
    p.rungs = .ok (assignColumns p.vars.length scaled) ∧ scaled.map (·.1) = p.goals := by
  unfold rungs
  refine ⟨_, bind_eq_ok.mpr ⟨_, mapM_eq_map (fun _ => rfl) p.goals, rfl⟩, ?_⟩
  rw [List.map_map]
  exact List.map_id _

/-- Every level of the goals has a coefficient in the objective, behind the variables. -/
theorem length_objective {scaled : List (LadderGoal Rat × Rat)}
    (hgoals : scaled.map (·.1) = p.goals) :
    (p.objective (assignColumns p.vars.length scaled)).length = p.width := by
  have hlengths : (assignColumns p.vars.length scaled).map (·.goal.levels.length) =
      p.goals.map (·.levels.length) := by
    rw [← hgoals, ← goals_assignColumns p.vars.length, List.map_map]
    rfl
  rw [objective, width, List.length_append, List.length_replicate, List.length_flatMap,
    List.length_flatMap, ← hlengths]
  simp only [List.length_map]

/-- Everything that is stated is about the columns of variables and levels, and about all. -/
theorem describe_calls (p : LadderProgram Rat) :
    ∃ calls, p.calls = .ok calls ∧ Describe p.width calls := by
  obtain ⟨scaled, hrungs, hgoals⟩ := p.rungs_eq
  have hlevels : (scaled.flatMap (·.1.levels)).length = p.width - p.vars.length := by
    rw [width, ← hgoals, List.flatMap_map, Nat.add_sub_cancel_left]
  have hcolumns := columns_assignColumns p.vars.length scaled
  rw [hlevels] at hcolumns
  refine ⟨_, bind_eq_ok.mpr ⟨_, hrungs, rfl⟩, ?_⟩
  have hle : p.vars.length ≤ p.width := Nat.le_add_right _ _
  refine GoalProgram.describe_statements hle (length_objective hgoals) ?_ ?_
  · intro call hcall
    obtain ⟨r, hr, hcall⟩ := List.mem_flatMap.mp hcall
    refine r.fits_calls (fun j hj => ?_) call hcall
    have hmem : j ∈ (assignColumns p.vars.length scaled).flatMap (·.columns) :=
      List.mem_flatMap.mpr ⟨r, hr, hj⟩
    rw [hcolumns, List.mem_range'_1] at hmem
    omega
  · rw [statedColumns_assignColumns, hlevels]

/-- For a goal with levels, a binary column is stated per level. -/
theorem exists_binary_mem_calls {calls : List (Call Rat)} (hcalls : p.calls = .ok calls)
    {g : LadderGoal Rat} (hg : g ∈ p.goals) (hlevels : g.levels ≠ []) :
    ∃ column, .binary column ∈ calls := by
  obtain ⟨scaled, hrungs, hgoals⟩ := p.rungs_eq
  rw [LadderProgram.calls, bind_of_eq_ok hrungs] at hcalls
  cases pure_eq_ok.mp hcalls
  have hgoal : g ∈ (assignColumns p.vars.length scaled).map (·.goal) := by
    rwa [goals_assignColumns, hgoals]
  obtain ⟨r, hr, rfl⟩ := List.mem_map.mp hgoal
  have hlength := length_columns hr
  obtain ⟨l, hl⟩ := List.exists_mem_of_ne_nil (r.goal.levels.zip r.columns) fun hnone => by
    rw [List.zip_eq_nil_iff] at hnone
    rcases hnone with hnone | hnone
    · exact hlevels hnone
    · rw [hnone] at hlength
      exact hlevels (List.eq_nil_of_length_eq_zero hlength.symm)
  refine ⟨l.2, List.mem_append_right _ (List.mem_flatMap.mpr ⟨r, hr, ?_⟩)⟩
  refine List.mem_append_left _ (List.mem_flatMap.mpr ⟨l, hl, ?_⟩)
  exact List.mem_cons_self ..

/-! ## Solving it -/

/-- Without anything to decide, solving ends before it comes to a backend. -/
theorem solve_of_idle (h : ¬p.Undecided) (backends : Nat → Option (Backend Rat)) :
    p.session? backends = none ∧ p.solve backends = p.solve fun _ => none := by
  unfold solve session?
  rcases GoalProgram.not_undecided_iff.mp h with hvars | ⟨e, he⟩ | hincome
  · simp only [hvars]
    exact ⟨rfl, rfl⟩
  · simp only [he]
    refine ⟨?_, rfl⟩
    cases p.vars.isEmpty <;> rfl
  · simp only [hincome]
    refine ⟨?_, rfl⟩
    cases p.vars.isEmpty
    · cases checkMinimums p.vars p.income <;> rfl
    · rfl

section
variable (h : p.Undecided) {backends : Nat → Option (Backend Rat)}
include h

/-- With something to decide, only the backend for the columns of the program matters. -/
theorem session?_of_undecided {calls : List (Call Rat)} (hcalls : p.calls = .ok calls) :
    p.session? backends = (backends p.width).map fun b => ⟨p.width, (b.run calls).trace⟩ := by
  have hvars : p.vars.isEmpty = false := by simpa using h.vars
  have hincome : ¬p.income ≤ 0 := not_le.mpr h.income
  rw [Option.map_eq_bind]
  simp only [session?, hvars, h.minimums, hincome, hcalls]
  rfl

/-- Without a backend the greedy run decides. -/
theorem solve_of_absent (hnone : backends p.width = none) :
    p.solve backends = p.solveGreedily := by
  rw [solve, if_neg (by simpa using h.vars), bind_of_eq_ok h.minimums,
    if_neg (not_le.mpr h.income), hnone]

/-- With a backend its solution decides, if it comes to one. -/
theorem solve_of_present {calls : List (Call Rat)} (hcalls : p.calls = .ok calls)
    {b : Backend Rat} (hb : backends p.width = some b) :
    p.solve backends = b.attempt calls >>= fun found =>
      found.elim p.solveGreedily fun solution =>
        p.summarize (p.clampSolution solution) .milp 1 := by
  rw [solve, if_neg (by simpa using h.vars), bind_of_eq_ok h.minimums,
    if_neg (not_le.mpr h.income), hb]
  dsimp only
  rw [bind_of_eq_ok hcalls]
  refine bind_congr fun found => ?_
  cases found <;> rfl

end

/-- Solving states the same program to any backend, and only where something is to decide. -/
theorem consults {calls : List (Call Rat)} (hcalls : p.calls = .ok calls) :
    Consults p p.solve p.session? (p.summarize · .milp 1) p.width calls := by
  constructor
  case describe =>
    obtain ⟨calls', hcalls', hdescribe⟩ := p.describe_calls
    cases hcalls.symm.trans hcalls'
    exact hdescribe
  case idle => exact solve_of_idle
  case session => exact fun h _ => session?_of_undecided h hcalls
  case absent =>
    exact fun h _ hnone => (solve_of_absent h hnone).trans (solve_of_absent h rfl).symm
  case asked =>
    intro h backends b hb
    rw [solve_of_present h hcalls hb, solve_of_absent h rfl]

/-- Every program with ladders consults its backend about some program. -/
theorem exists_consults (p : LadderProgram Rat) :
    ∃ calls, Consults p p.solve p.session? (p.summarize · .milp 1) p.width calls := by
  obtain ⟨calls, hcalls⟩ := p.exists_calls
  exact ⟨calls, consults hcalls⟩

end GoalBudget.LadderProgram
