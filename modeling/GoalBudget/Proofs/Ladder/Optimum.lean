import GoalBudget.Proofs.Ladder.Choice
import GoalBudget.Proofs.Ladder.Consultation
import Mathlib.Data.List.SplitLengths

/-!
# Optimal solutions of the program with ladders

A point of the program that is stated for ladders is an allocation with a row of cells for every
goal behind it (`exists_split`). It is feasible exactly when the income affords the allocation and
every row chooses a level of its ladder (`feasible_milp_iff`), and its objective is what the choices
are worth, tier by tier, less a small cost of what is spent (`value_milp`). Since a choice is worth
at most the highest level that is reached, and one is worth that much, an optimal point has an
allocation in front that is worth the most.

What is said of rows of cells is said of lists of lists, one for every goal, and the columns are
matched with them once (`map_columns_laid`). With that the rows of the program are read goal by goal
(`respects_iff`).

The cost of what is spent is part of what is maximized (`benefit`): of two allocations that reach
the same levels the one that spends less is better.

Main result: `solve_maximizes`, for every backend that solves this program to an optimum.
-/

namespace GoalBudget

/-! ## Products of lists in parts -/

/-- A product of lists in two parts. -/
theorem dot_append {coeffs more values rest : List Rat} (h : coeffs.length = values.length) :
    dot (coeffs ++ more) (values ++ rest) = dot coeffs values + dot more rest := by
  rw [dot, List.zipWith_append h, total_eq_sum, List.sum_append, dot, dot, total_eq_sum,
    total_eq_sum]

theorem dot_replicate (c : Rat) (values : List Rat) :
    dot (List.replicate values.length c) values = c * values.sum := by
  rw [dot, total_eq_sum]
  induction values with
  | nil => exact (mul_zero c).symm
  | cons x rest ih =>
    rw [List.length_cons, List.replicate_succ, List.zipWith_cons_cons, List.sum_cons, ih,
      List.sum_cons, mul_add]

/-- The part of a list that stands between others. -/
theorem map_getD_range' (front cells rest : List Rat) :
    (List.range' front.length cells.length).map (fun j => (front ++ (cells ++ rest)).getD j 0) =
      cells := by
  refine List.ext_getElem (by rw [List.length_map, List.length_range']) fun i hi hi' => ?_
  rw [List.getElem_map, List.getElem_range', one_mul, List.getD_eq_getElem?_getD,
    List.getElem?_append_right (Nat.le_add_right _ _), Nat.add_sub_cancel_left,
    List.getElem?_append_left hi', List.getElem?_eq_getElem hi', Option.getD_some]

namespace LadderProgram

variable {p : LadderProgram Rat} {n : Nat} {x point : List Rat} {choices : List (List Rat)}

/-! ## What an allocation is worth -/

/-- The multiplier of a tier: a thousand for every tier that a goal stands above the reference. -/
def tierScale (p : LadderProgram Rat) (g : LadderGoal Rat) : Rat :=
  1000 ^ tiersAbove g.priority 10 (some ((leastImportant (p.goals.map (·.priority))).getD 10))

/-- What an allocation is worth: for every goal the reward of the highest level that is reached,
times the multiplier of its tier, less a small cost of what is spent. -/
def benefit (p : LadderProgram Rat) (x : List Rat) : Rat :=
  (p.goals.map fun g => p.tierScale g * g.rewardAt (x.getD g.index 0)).sum -
    1e-6 * x.sum / p.income

/-- The goals with their multipliers. -/
def scaled (p : LadderProgram Rat) : List (LadderGoal Rat × Rat) :=
  p.goals.map fun g => (g, p.tierScale g)

/-- The goals with their columns and multipliers. -/
def laid (p : LadderProgram Rat) : List (Rungs Rat) := assignColumns p.vars.length p.scaled

/-- Everything that is stated to a backend. -/
def stated (p : LadderProgram Rat) : List (Call Rat) :=
  p.statements p.width (p.objective p.laid) true (p.laid.flatMap (Rungs.calls p.width))

/-- The program that is stated to a backend. -/
def milp (p : LadderProgram Rat) : Program Rat := Program.ofCalls p.width p.stated

/-- The statements are always defined. -/
theorem calls_eq_stated (p : LadderProgram Rat) : p.calls = .ok p.stated := by
  have hrungs : p.rungs = .ok p.laid :=
    bind_eq_ok.mpr ⟨p.scaled, mapM_eq_map (fun _ => rfl) p.goals, rfl⟩
  exact bind_eq_ok.mpr ⟨p.laid, hrungs, rfl⟩

/-! ## The rows of cells -/

/-- Whether there is a row of cells for every ladder. -/
def HasCells (p : LadderProgram Rat) (choices : List (List Rat)) : Prop :=
  List.Forall₂ (fun g cells => cells.length = g.levels.length) p.goals choices

theorem HasCells.length_flatten (h : p.HasCells choices) :
    choices.flatten.length = (p.goals.flatMap (·.levels)).length := by
  have hlengths : p.goals.map (·.levels.length) = choices.map List.length := by
    rw [← List.forall₂_eq_eq_eq, List.forall₂_map_left_iff, List.forall₂_map_right_iff]
    exact h.imp fun _ _ hcells => hcells.symm
  rw [List.length_flatten, List.length_flatMap, ← hlengths]

/-- Every point of the right length is an allocation with rows of cells behind it. -/
theorem exists_split (h : point.length = p.width) : ∃ x choices,
    x.length = p.vars.length ∧ p.HasCells choices ∧ point = x ++ choices.flatten := by
  have hsum : (p.goals.map (·.levels.length)).sum = (point.drop p.vars.length).length := by
    rw [List.length_drop, h, width, Nat.add_sub_cancel_left, List.length_flatMap]
  refine ⟨point.take p.vars.length,
    (p.goals.map (·.levels.length)).splitLengths (point.drop p.vars.length), ?_, ?_, ?_⟩
  · rw [List.length_take, h, width, Nat.min_eq_left (Nat.le_add_right _ _)]
  · have hlengths := List.map_splitLengths_length _ _ hsum.le
    rw [← List.forall₂_eq_eq_eq, List.forall₂_map_left_iff, List.forall₂_map_right_iff] at hlengths
    exact hlengths.flip
  · rw [List.flatten_splitLengths _ _ hsum.ge, List.take_append_drop]

/-- The rows of cells that are laid out behind an allocation are found in the columns of their
ladders. -/
theorem map_columns_assignColumns {scaled : List (LadderGoal Rat × Rat)} (front : List Rat)
    (h : List.Forall₂ (fun pair cells => cells.length = pair.1.levels.length) scaled choices) :
    (assignColumns front.length scaled).map
      (fun r => r.columns.map ((front ++ choices.flatten).getD · 0)) = choices := by
  induction h generalizing front with
  | nil => rfl
  | @cons pair cells rest others hcells _ ih =>
    rw [assignColumns, List.map_cons, List.flatten_cons]
    refine congrArg₂ List.cons ?_ ?_
    · rw [← hcells]
      exact map_getD_range' front cells others.flatten
    · have hrest := ih (front ++ cells)
      rwa [List.length_append, hcells, List.append_assoc] at hrest

/-! ## What is stated about a ladder -/

namespace Rungs

/-- Whether every level has a column of its own between two bounds. -/
structure Placed (r : Rungs Rat) (front n : Nat) : Prop where
  length_eq : r.columns.length = r.goal.levels.length
  nodup : r.columns.Nodup
  between : ∀ j ∈ r.columns, front ≤ j ∧ j < n

/-- The row that lets a level be chosen only if it is reached. -/
def reachRow (n : Nat) (r : Rungs Rat) (l : Level Rat × Nat) : Row Rat :=
  ⟨sparse n [(r.goal.index, 1), (l.2, -l.1.value)], .atLeast, 0⟩

/-- The row that lets at most one level be chosen. -/
def singleRow (n : Nat) (r : Rungs Rat) : Row Rat :=
  ⟨sparse n (r.columns.map fun column => (column, 1)), .atMost, 1⟩

variable {r : Rungs Rat} {front : Nat}

/-- The rows that are stated about a goal: one per level that asks for something, and one to choose.
-/
theorem statedRows_eq : (r.calls n).filterMap Call.statedRow =
    ((r.goal.levels.zip r.columns).flatMap fun l =>
      if 0 < l.1.value then [r.reachRow n l] else []) ++ [r.singleRow n] := by
  rw [calls, List.filterMap_append, List.filterMap_flatMap]
  refine congrArg₂ (· ++ ·) (List.flatMap_congr fun l _ => ?_) rfl
  split <;> rfl

variable (hr : r.Placed front n) (hindex : r.goal.index < front)
include hr hindex

/-- A level that is chosen has to be reached. -/
theorem reachRow_holds_iff {l : Level Rat × Nat} (hl : l.2 ∈ r.columns) :
    (r.reachRow n l).Holds point ↔
      l.1.value * point.getD l.2 0 ≤ point.getD r.goal.index 0 := by
  obtain ⟨hfront, hlt⟩ := hr.between l.2 hl
  have hdot : dot (r.reachRow n l).coeffs point =
      point.getD r.goal.index 0 - l.1.value * point.getD l.2 0 := by
    rw [reachRow, dot_sparse (by simp; omega) (by simp; omega)]
    simp only [List.map_cons, List.map_nil, List.sum_cons, List.sum_nil]
    ring
  show 0 ≤ dot _ point ↔ _
  rw [hdot, sub_nonneg]

omit hindex in
theorem singleRow_holds_iff :
    (r.singleRow n).Holds point ↔ (r.columns.map (point.getD · 0)).sum ≤ 1 := by
  have hdot : dot (r.singleRow n).coeffs point = (r.columns.map (point.getD · 0)).sum := by
    rw [singleRow, dot_sparse]
    · simp only [List.map_map, Function.comp_def, one_mul]
    · rw [List.map_map]
      exact (List.map_id _).symm ▸ hr.nodup
    · intro t ht
      obtain ⟨j, hj, rfl⟩ := List.mem_map.mp ht
      exact (hr.between j hj).2
  show dot _ point ≤ 1 ↔ _
  rw [hdot]

/-- A point respects what is stated about a ladder when its cells choose a level. -/
theorem respects_iff (hx : 0 ≤ point.getD r.goal.index 0) :
    ((∀ pair ∈ Program.statedColumns (r.calls n), pair.2.Allows (point.getD pair.1 0)) ∧
        ∀ row ∈ (r.calls n).filterMap Call.statedRow, row.Holds point) ↔
      r.goal.Chooses (point.getD r.goal.index 0) (r.columns.map (point.getD · 0)) := by
  have hzip : r.goal.levels.zip (r.columns.map (point.getD · 0)) =
      (r.goal.levels.zip r.columns).map fun l => (l.1, point.getD l.2 0) := List.zip_map_right ..
  have hcolumn {l : Level Rat × Nat} (hl : l ∈ r.goal.levels.zip r.columns) : l.2 ∈ r.columns :=
    (List.of_mem_zip hl).2
  rw [statedColumns_calls hr.length_eq, statedRows_eq, List.forall_mem_map, List.forall_mem_append,
    List.forall_mem_singleton, singleRow_holds_iff hr]
  simp only [Program.allows_binary_iff]
  constructor
  · rintro ⟨hbinary, hreached, hsingle⟩
    have hcells : ∀ c ∈ r.columns.map (point.getD · 0), c = 0 ∨ c = 1 :=
      List.forall_mem_map.mpr hbinary
    -- The single row counts the ones, the reach rows say that the level chosen is reached.
    refine ⟨by rw [List.length_map, hr.length_eq], hcells, ?_, ?_⟩
    · rw [sum_eq_count_one hcells] at hsingle
      exact_mod_cast hsingle
    · rw [hzip, List.forall_mem_map]
      intro l hl (hone : point.getD l.2 0 = 1)
      -- A level that asks for nothing has no reach row, and needs none.
      by_cases hvalue : 0 < l.1.value
      · have hrow := hreached (r.reachRow n l)
          (List.mem_flatMap.mpr ⟨l, hl, by rw [if_pos hvalue]; exact List.mem_singleton_self _⟩)
        rw [reachRow_holds_iff hr hindex (hcolumn hl), hone, mul_one] at hrow
        exact .inr hrow
      · exact .inl (not_lt.mp hvalue)
  · intro h
    have hbinary : ∀ j ∈ r.columns, point.getD j 0 = 0 ∨ point.getD j 0 = 1 :=
      List.forall_mem_map.mp h.binary
    refine ⟨hbinary, fun row hrow => ?_, ?_⟩
    · obtain ⟨l, hl, hrow⟩ := List.mem_flatMap.mp hrow
      split at hrow
      next hvalue =>
        cases List.mem_singleton.mp hrow
        rw [reachRow_holds_iff hr hindex (hcolumn hl)]
        -- A level that is not chosen asks for an amount of at least zero, one that is chosen for
        -- its value.
        rcases hbinary l.2 (hcolumn hl) with hzero | hone
        · rw [hzero, mul_zero]
          exact hx
        · have hchosen : (l.1, point.getD l.2 0) ∈ r.goal.levels.zip
              (r.columns.map (point.getD · 0)) := hzip ▸ List.mem_map_of_mem hl
          rw [hone, mul_one]
          exact (h.reached _ hchosen hone).resolve_left (not_le.mpr hvalue)
      next => cases hrow
    · rw [sum_eq_count_one h.binary]
      exact_mod_cast h.atMostOne

end Rungs

/-! ## The points of the program -/

/-- The goals are laid in their order. -/
theorem laid_goals (p : LadderProgram Rat) : p.laid.map (·.goal) = p.goals := by
  rw [laid, goals_assignColumns, scaled, List.map_map]
  exact List.map_id _

/-- The levels take the columns that the variables leave. -/
theorem levels_scaled (p : LadderProgram Rat) :
    (p.scaled.flatMap (·.1.levels)).length = p.width - p.vars.length := by
  rw [scaled, List.flatMap_map, width, Nat.add_sub_cancel_left]

/-- The columns of the ladders are all those behind the variables. -/
theorem columns_laid (p : LadderProgram Rat) :
    p.laid.flatMap (·.columns) = List.range' p.vars.length (p.width - p.vars.length) := by
  rw [laid, columns_assignColumns, levels_scaled]

/-- Every goal has its columns behind the variables. -/
theorem placed_laid {r : Rungs Rat} (hr : r ∈ p.laid) : r.Placed p.vars.length p.width := by
  have hsublist : r.columns.Sublist (p.laid.flatMap (·.columns)) :=
    List.sublist_flatten_of_mem (List.mem_map_of_mem hr)
  rw [columns_laid] at hsublist
  refine ⟨length_columns hr, List.Nodup.sublist hsublist List.nodup_range', fun j hj => ?_⟩
  have hmem := hsublist.mem hj
  rw [List.mem_range'_1] at hmem
  omega

theorem index_laid {r : Rungs Rat} (hr : r ∈ p.laid) : r.goal.index < p.vars.length := by
  have hgoal : r.goal ∈ p.laid.map (·.goal) := List.mem_map_of_mem hr
  exact p.index_lt r.goal (p.laid_goals ▸ hgoal)

/-- The columns of the levels are stated once, in order. -/
theorem statedColumns_laid (p : LadderProgram Rat) :
    (Program.statedColumns (p.laid.flatMap (Rungs.calls p.width))).map Prod.fst =
      List.range' p.vars.length (p.width - p.vars.length) := by
  rw [laid, statedColumns_assignColumns, levels_scaled]

section
variable (hx : x.length = p.vars.length) (hcells : p.HasCells choices)
include hx hcells

theorem map_columns_laid :
    p.laid.map (fun r => r.columns.map ((x ++ choices.flatten).getD · 0)) = choices := by
  rw [laid, ← hx]
  refine map_columns_assignColumns x ?_
  rwa [scaled, List.forall₂_map_left_iff]

/-- An allocation with rows of cells is a point of the program when the income affords it and
every row chooses a level of its ladder that is reached. -/
theorem feasible_milp_iff : p.milp.Feasible (x ++ choices.flatten) ↔
    p.Affords p.cappedLimit x ∧
      List.Forall₂ (fun g cells => g.Chooses (x.getD g.index 0) cells) p.goals choices := by
  have hlen : (x ++ choices.flatten).length = p.width := by
    rw [List.length_append, hx, hcells.length_flatten, width]
  have htake : (x ++ choices.flatten).take p.vars.length = x := by
    rw [← hx, List.take_left']
    rfl
  have hamount (i : Nat) (hi : i < p.vars.length) :
      (x ++ choices.flatten).getD i 0 = x.getD i 0 := by
    rw [← getD_take_of_lt hi, htake]
  -- what is stated about all ladders is what is stated about each
  have hrest : ((∀ pair ∈ Program.statedColumns (p.laid.flatMap (Rungs.calls p.width)),
        pair.2.Allows ((x ++ choices.flatten).getD pair.1 0)) ∧
      ∀ row ∈ (p.laid.flatMap (Rungs.calls p.width)).filterMap Call.statedRow,
        row.Holds (x ++ choices.flatten)) ↔ ∀ r ∈ p.laid,
      (∀ pair ∈ Program.statedColumns (r.calls p.width),
        pair.2.Allows ((x ++ choices.flatten).getD pair.1 0)) ∧
      ∀ row ∈ (r.calls p.width).filterMap Call.statedRow, row.Holds (x ++ choices.flatten) := by
    simp only [Program.statedColumns, List.filterMap_flatMap, List.mem_flatMap]
    constructor
    · intro h r hr
      exact ⟨fun pair hpair => h.1 pair ⟨r, hr, hpair⟩, fun row hrow => h.2 row ⟨r, hr, hrow⟩⟩
    · intro h
      refine ⟨fun pair hpair => ?_, fun row hrow => ?_⟩
      · obtain ⟨r, hr, hpair⟩ := hpair
        exact (h r hr).1 pair hpair
      · obtain ⟨r, hr, hrow⟩ := hrow
        exact (h r hr).2 row hrow
  have hle : p.vars.length ≤ p.width := Nat.le_add_right _ _
  rw [milp, stated, GoalProgram.feasible_statements_iff hle p.statedColumns_laid,
    and_iff_right hlen, htake, hrest, and_congr_right_iff]
  intro haffords
  have hchooses : (∀ r ∈ p.laid, r.goal.Chooses (x.getD r.goal.index 0)
      (r.columns.map ((x ++ choices.flatten).getD · 0))) ↔
        List.Forall₂ (fun g cells => g.Chooses (x.getD g.index 0) cells) p.goals choices := by
    conv_rhs => rw [← p.laid_goals, ← map_columns_laid hx hcells]
    rw [List.forall₂_map_left_iff, List.forall₂_map_right_iff, List.forall₂_same]
  rw [← hchooses]
  refine forall₂_congr fun r hr => ?_
  have hindex := index_laid hr
  rw [Rungs.respects_iff (placed_laid hr) hindex (by
    rw [hamount _ hindex]
    exact haffords.amount_nonneg _), hamount _ hindex]

end

/-! ## What a point is worth -/

/-- The coefficients of the levels are those of the goals in order. -/
theorem flatMap_rewards (column : Nat) (scaled : List (LadderGoal Rat × Rat)) :
    ((assignColumns column scaled).flatMap fun r => r.goal.levels.map fun l => l.reward * r.scale) =
      scaled.flatMap fun pair => pair.1.levels.map fun l => l.reward * pair.2 := by
  induction scaled generalizing column with
  | nil => rfl
  | cons pair rest ih => exact congrArg _ (ih _)

/-- A row of cells is worth what it chooses, times the multiplier. -/
theorem dot_rewards (g : LadderGoal Rat) (scale : Rat) (cells : List Rat) :
    dot (g.levels.map fun l => l.reward * scale) cells = scale * g.worth cells := by
  rw [dot, total_eq_sum, LadderGoal.worth, ← List.sum_map_mul_left, List.zipWith_map_left,
    ← List.map_uncurry_zip_eq_zipWith]
  refine congrArg List.sum (List.map_congr_left fun l _ => ?_)
  show l.1.reward * scale * l.2 = scale * (l.1.reward * l.2)
  ring

/-- All rows of cells, one after the other. -/
theorem dot_flatten {goals : List (LadderGoal Rat)} (scale : LadderGoal Rat → Rat)
    (h : List.Forall₂ (fun g cells => cells.length = g.levels.length) goals choices) :
    dot (goals.flatMap fun g => g.levels.map fun l => l.reward * scale g) choices.flatten =
      ((goals.zip choices).map fun c => scale c.1 * c.1.worth c.2).sum := by
  induction h with
  | nil => rfl
  | @cons g cells rest others hcells _ ih =>
    rw [List.flatMap_cons, List.flatten_cons,
      dot_append (by rw [List.length_map, hcells]), dot_rewards, ih]
    rfl

theorem objective_milp : p.milp.objective = p.objective p.laid ∧ p.milp.maximize = true := by
  refine GoalProgram.objective_statements fun coeffs maximize => ?_
  simp [Rungs.calls]

/-- The objective of a point: what its rows of cells choose, less the cost of what is spent. -/
theorem value_milp (hx : x.length = p.vars.length) (hcells : p.HasCells choices) :
    p.milp.value (x ++ choices.flatten) =
      ((p.goals.zip choices).map fun c => p.tierScale c.1 * c.1.worth c.2).sum -
        1e-6 * x.sum / p.income := by
  have hspent : dot (List.replicate p.vars.length (-1e-6 / p.income)) x =
      -(1e-6 * x.sum / p.income) := by
    rw [← hx, dot_replicate]
    ring
  rw [Program.value, objective_milp.1, objective, laid, flatMap_rewards, scaled, List.flatMap_map,
    dot_append (by rw [List.length_replicate, hx]), dot_flatten p.tierScale hcells, hspent]
  ring

theorem tierScale_nonneg (g : LadderGoal Rat) : 0 ≤ p.tierScale g := by
  rw [tierScale]
  positivity

section
variable (hrewards : ∀ g ∈ p.goals, g.Rewarding)
include hrewards

/-- A feasible point is worth no more than the allocation in front. -/
theorem value_le_benefit (hx : x.length = p.vars.length) (hcells : p.HasCells choices)
    (h : p.milp.Feasible (x ++ choices.flatten)) :
    p.milp.value (x ++ choices.flatten) ≤ p.benefit x := by
  obtain ⟨haffords, hchooses⟩ := (feasible_milp_iff hx hcells).mp h
  rw [value_milp hx hcells, benefit]
  refine sub_le_sub_right (List.Forall₂.sum_le_sum ?_) _
  have hlength : p.goals.length = choices.length := hchooses.length_eq
  conv_rhs => rw [← List.map_fst_zip hlength.le]
  rw [List.map_map, List.forall₂_map_left_iff, List.forall₂_map_right_iff, List.forall₂_same]
  intro c hc
  refine mul_le_mul_of_nonneg_left ?_ (tierScale_nonneg _)
  exact ((List.forall₂_iff_zip.mp hchooses).2 hc).worth_le (hrewards _ (List.of_mem_zip hc).1)
    (haffords.amount_nonneg _)

omit hrewards in
/-- Every allocation that the income affords is in front of a feasible point that is worth as
much. -/
theorem exists_choices (haffords : p.Affords p.cappedLimit x) : ∃ choices, p.HasCells choices ∧
    p.milp.Feasible (x ++ choices.flatten) ∧
    p.milp.value (x ++ choices.flatten) = p.benefit x := by
  choose cells hchooses hworth using fun g : LadderGoal Rat =>
    g.exists_chooses (x.getD g.index 0)
  have hall : List.Forall₂ (fun g cells => g.Chooses (x.getD g.index 0) cells) p.goals
      (p.goals.map cells) := by
    rw [List.forall₂_map_right_iff, List.forall₂_same]
    exact fun g _ => hchooses g
  have hcells : p.HasCells (p.goals.map cells) := hall.imp fun _ _ h => h.length_eq
  refine ⟨p.goals.map cells, hcells, (feasible_milp_iff haffords.length hcells).mpr
    ⟨haffords, hall⟩, ?_⟩
  have hzip : p.goals.zip (p.goals.map cells) = p.goals.map fun g => (g, cells g) := by
    rw [List.zip, List.zipWith_map_right, List.zipWith_self]
  rw [value_milp haffords.length hcells, benefit, hzip, List.map_map]
  refine congrArg (fun worths : List Rat => worths.sum - 1e-6 * x.sum / p.income)
    (List.map_congr_left fun g _ => ?_)
  exact congrArg (p.tierScale g * ·) (hworth g)

/-- An optimal point has an optimal allocation in front. -/
theorem exists_of_isOptimal (h : p.milp.IsOptimal point) :
    p.Affords p.cappedLimit (point.take p.vars.length) ∧
      ∀ y, p.Affords p.cappedLimit y → p.benefit y ≤ p.benefit (point.take p.vars.length) := by
  obtain ⟨x, choices, hx, hcells, rfl⟩ := exists_split (h.1.1.trans (Program.size_ofCalls _))
  rw [← hx, List.take_left]
  refine ⟨((feasible_milp_iff hx hcells).mp h.1).1, fun y hy => ?_⟩
  obtain ⟨others, _, hother, hvalue⟩ := exists_choices hy
  have hgood := h.2 _ hother
  rw [Program.AsGood, objective_milp.2, if_pos rfl, hvalue] at hgood
  exact hgood.trans (value_le_benefit hrewards hx hcells h.1)

/-- A point that is worth as much as an optimal allocation is optimal. -/
theorem isOptimal_of_benefit (h : p.milp.Feasible point) (hvalue : p.milp.value point = p.benefit x)
    (hoptimal : ∀ y, p.Affords p.cappedLimit y → p.benefit y ≤ p.benefit x) :
    p.milp.IsOptimal point := by
  refine ⟨h, fun other hother => ?_⟩
  obtain ⟨y, choices, hy, hcells, rfl⟩ := exists_split (hother.1.trans (Program.size_ofCalls _))
  rw [Program.AsGood, objective_milp.2, if_pos rfl, hvalue]
  exact (value_le_benefit hrewards hy hcells hother).trans
    (hoptimal y ((feasible_milp_iff hy hcells).mp hother).1)

/-- The points of the program that is stated are allocations with a row of cells per ladder, and
they are feasible exactly when the income affords the allocation and every row chooses at most one
level, which is reached or asks for nothing. So a backend that answers with an optimal solution
gives the variables amounts that are worth the most among all that the income affords, by the
rewards of the highest levels that are reached. -/
theorem solve_maximizes (hids : (p.vars.map (·.id)).Nodup) (hincome : 0 < p.income) :
    p.calls = .ok p.stated ∧
    (∀ point, p.milp.Feasible point → ∃ x choices, x.length = p.vars.length ∧
      p.HasCells choices ∧ point = x ++ choices.flatten) ∧
    (∀ x choices, x.length = p.vars.length → p.HasCells choices →
      (p.milp.Feasible (x ++ choices.flatten) ↔ p.Affords p.cappedLimit x ∧
        List.Forall₂ (fun g cells => g.Chooses (x.getD g.index 0) cells) p.goals choices)) ∧
    ∀ (backends : Nat → Option (Backend Rat)) b, backends p.width = some b →
      b.Optimizes p.width p.stated → ∃ r x, p.solve backends = .ok r ∧
        r.variableValues.entries = (p.vars.map (·.id)).zip x ∧ p.Affords p.cappedLimit x ∧
        ∀ y, p.Affords p.cappedLimit y → p.benefit y ≤ p.benefit x := by
  refine ⟨p.calls_eq_stated, fun point h => exists_split (h.1.trans (Program.size_ofCalls _)),
    fun x choices hx hcells => feasible_milp_iff hx hcells, fun backends b hb hoptimizes => ?_⟩
  obtain ⟨answer, hanswer, hstatus, hoptimal⟩ := hoptimizes
  obtain ⟨haffords, hbest⟩ := exists_of_isOptimal hrewards hoptimal
  have hattempt : b.attempt p.stated = .ok (some answer.solution) := by
    rw [Backend.attempt, hanswer]
    exact congrArg Except.ok (if_pos hstatus)
  -- without variables nothing is handed over, and there is nothing else to give
  have hsolve : ∃ method iterations, ∀ r,
      p.summarize (answer.solution.take p.vars.length) method iterations = .ok r →
        p.solve backends = .ok r := by
    by_cases hvars : p.vars = []
    · refine ⟨.none, 0, fun r hr => ?_⟩
      rw [hvars] at hr
      rw [solve, if_pos (List.isEmpty_iff.mpr hvars)]
      exact hr
    · refine ⟨.milp, 1, fun r hr => ?_⟩
      have hopen : p.Undecided :=
        ⟨hvars, checkMinimums_of_le haffords.sumOfMinimums_le, hincome⟩
      rw [solve_of_present hopen p.calls_eq_stated hb, hattempt]
      show p.summarize (p.clampSolution answer.solution) .milp 1 = .ok r
      rwa [GoalProgram.clampSolution_of_affords haffords]
  obtain ⟨method, iterations, hsolve⟩ := hsolve
  obtain ⟨r, hr⟩ := exists_summarize haffords.length method iterations
  refine ⟨r, answer.solution.take p.vars.length, hsolve r hr, ?_, haffords, hbest⟩
  rw [summarize_values hr, GoalProgram.entries_valuesById hids haffords.length]

end

/-- Two wishes that are both served by half, where the first one alone could have it all. -/
def balanced : LadderProgram Rat where
  income := 1000
  vars := [⟨"a", "a", .category, 0, 1200, by decide, by decide⟩,
    ⟨"b", "b", .category, 0, 600, by decide, by decide⟩]
  goals := [⟨"a", 0, [⟨500, 10, "half"⟩, ⟨1000, 12, "full"⟩], 1, 2, ""⟩,
    ⟨"b", 1, [⟨500, 10, "half"⟩], 1, 1, ""⟩]
  index_lt := by decide

theorem rewarding_balanced : ∀ g ∈ balanced.goals, g.Rewarding :=
  List.forall_mem_cons.mpr ⟨⟨by decide +kernel, by decide +kernel⟩,
    List.forall_mem_singleton.mpr ⟨by decide +kernel, by decide +kernel⟩⟩

/-- No way to share the income is worth more. -/
theorem benefit_balanced (y : List Rat) (hy : balanced.Affords balanced.cappedLimit y) :
    balanced.benefit y ≤ balanced.benefit [500, 500] := by
  obtain ⟨a, b, rfl⟩ := List.length_eq_two.mp hy.length
  have hsum : a + b ≤ 1000 := by simpa [balanced] using hy.sum_le
  have ha : 0 ≤ a := hy.amount_nonneg 0
  have hb : 0 ≤ b := hy.amount_nonneg 1
  have hbest : balanced.benefit [500, 500] = 20 - 1e-6 := by decide +kernel
  have hworth : balanced.benefit [a, b] = (if 1000 ≤ a then 12 else if 500 ≤ a then 10 else 0) +
      (if 500 ≤ b then 10 else 0) - 1e-6 * (a + b) / 1000 := by
    simp [benefit, tierScale, balanced, tiersAbove, leastImportant, LadderGoal.rewardAt,
      LadderGoal.highest?, List.find?_cons]
    split_ifs <;> simp [*]
  rw [hbest, hworth]
  split_ifs <;> linarith

/-- With a backend that shares evenly the result is worth the most. -/
theorem solve_maximizes_balanced :
    (∀ g ∈ balanced.goals, g.Rewarding) ∧ ∃ r x,
      balanced.solve (fun n => some (.scripted .optimal [500, 500, 1, 0, 1] n)) = .ok r ∧
        r.variableValues.entries = ["a", "b"].zip x ∧ balanced.Affords balanced.cappedLimit x ∧
        ∀ y, balanced.Affords balanced.cappedLimit y → balanced.benefit y ≤ balanced.benefit x := by
  have hfeasible : balanced.milp.Feasible ([500, 500] ++ [[1, 0], [1]].flatten) := by
    have hcells : balanced.HasCells [[1, 0], [1]] := by
      rw [HasCells]
      decide
    rw [feasible_milp_iff rfl hcells]
    decide +kernel
  have hvalue : balanced.milp.value ([500, 500] ++ [[1, 0], [1]].flatten) =
      balanced.benefit [500, 500] := by decide +kernel
  have hoptimal := isOptimal_of_benefit rewarding_balanced hfeasible hvalue benefit_balanced
  obtain ⟨_, _, _, hsolve⟩ := solve_maximizes rewarding_balanced (by decide) (by decide)
  exact ⟨rewarding_balanced, hsolve _ _ rfl (Backend.optimizes_scripted hoptimal)⟩

end LadderProgram

end GoalBudget
