import GoalBudget.Proofs.Deviation.Linear
import GoalBudget.Proofs.Strategy.Affordable

/-!
# Deviations as a linear program: nothing is lost

The program that is stated has the variables in front, then for every goal a column for what is
below its target, then for every goal one for what is above. Its points are characterized column by
column in `feasible_linearCalls_iff`.

An allocation that the income affords, followed by its true shortfalls and excesses, is a point of
the program (`feasible_pointOf`), and the objective there is the weighted deviation
(`value_pointOf`). At any point the columns of a goal pay for at least the deviation of the goal
(`weightedDeviation_le_value`): both columns may be larger than the true ones by the same amount,
which costs something or nothing, and never pays. So an optimal point has an optimal allocation in
front.

The columns of a goal have upper bounds, the greater of target and income below and the income
above. They are large enough for the true shortfall and excess of every allocation, which is where
the targets must not be negative.

Main result: `solveLinear_optimal`.
-/

namespace GoalBudget.DeviationProgram

variable {p : DeviationProgram Rat} {x point : List Rat}

/-- The deviations of all goals with an allocation, by weight. -/
def weightedDeviation (p : DeviationProgram Rat) (x : List Rat) : Rat :=
  (p.goals.map fun g => g.weight * g.deviation (x.getD g.index 0)).sum

/-- The limit above that the program states for a variable. -/
def upperLimit (p : DeviationProgram Rat) (v : Variable Rat) : Limit Rat :=
  .upTo (v.upperBound p.income)

/-! ## What is stated -/

/-- The columns that are stated: the variables within their bounds, and two for each goal. -/
theorem statedColumns_linearCalls : Program.statedColumns p.linearCalls =
    GoalProgram.boundColumns p.vars p.upperLimit ++
      p.goals.zipIdx.flatMap fun g =>
        [(p.vars.length + g.2, ⟨0, .upTo (greatest g.1.target p.income), false⟩),
          (p.vars.length + p.goals.length + g.2, ⟨0, .upTo p.income, false⟩)] := by
  rw [← GoalProgram.statedColumns_bounds, Program.statedColumns, linearCalls,
    List.filterMap_append, List.filterMap_append, List.filterMap_append, List.filterMap_flatMap]
  exact List.append_nil _

/-- The rows that are stated: one for each goal, and that of the budget. -/
theorem statedRows_linearCalls : p.linearCalls.filterMap Call.statedRow =
    (p.goals.zipIdx.map fun g =>
      ⟨sparse p.width [(g.1.index, 1), (p.vars.length + g.2, 1),
        (p.vars.length + p.goals.length + g.2, -1)], .equal, g.1.target⟩) ++
      [⟨List.replicate p.vars.length 1 ++ List.replicate (2 * p.goals.length) 0, .atMost,
        p.income⟩] := by
  have hvars : (p.vars.zipIdx.map fun v =>
      (.bounds v.2 v.1.minimum (.upTo (v.1.upperBound p.income)) : Call Rat)).filterMap
        Call.statedRow = [] := GoalProgram.statedRows_bounds p.vars p.upperLimit
  rw [linearCalls, List.filterMap_append, List.filterMap_append, List.filterMap_append, hvars,
    List.filterMap_flatMap, List.map_const', ← List.flatMap_pure_eq_map]
  rfl

/-- Every column is stated once: the variables' first, then two for every goal. -/
theorem keys_statedColumns_linearCalls : (Program.statedColumns p.linearCalls).map Prod.fst =
    List.range p.vars.length ++ (List.range p.goals.length).flatMap fun j =>
      [p.vars.length + j, p.vars.length + p.goals.length + j] := by
  rw [statedColumns_linearCalls, List.map_append, GoalProgram.keys_boundColumns, List.map_flatMap,
    List.range_eq_range' (n := p.goals.length), ← List.zipIdx_map_snd 0 p.goals, List.flatMap_map]
  rfl

theorem mem_keys_statedColumns_linearCalls {j : Nat} :
    j ∈ (Program.statedColumns p.linearCalls).map Prod.fst ↔ j < p.width := by
  rw [keys_statedColumns_linearCalls, width]
  simp only [List.mem_append, List.mem_range, List.mem_flatMap, List.mem_cons, List.not_mem_nil,
    or_false]
  constructor
  · rintro (h | ⟨i, hi, rfl | rfl⟩) <;> omega
  · intro h
    by_cases hvar : j < p.vars.length
    · exact .inl hvar
    · by_cases hbelow : j < p.vars.length + p.goals.length
      · exact .inr ⟨j - p.vars.length, by omega, .inl (by omega)⟩
      · exact .inr ⟨j - (p.vars.length + p.goals.length), by omega, .inr (by omega)⟩

theorem nodup_keys_statedColumns_linearCalls :
    ((Program.statedColumns p.linearCalls).map Prod.fst).Nodup := by
  rw [keys_statedColumns_linearCalls, List.nodup_append, List.nodup_flatMap]
  refine ⟨List.nodup_range, ⟨?_, ?_⟩, ?_⟩
  · intro j hj
    have := List.mem_range.mp hj
    simp only [List.nodup_cons, List.mem_singleton, List.not_mem_nil, not_false_eq_true,
      List.nodup_nil, and_true]
    omega
  · refine List.nodup_range.imp_of_mem ?_
    intro i j hi hj hij
    have := List.mem_range.mp hi
    have := List.mem_range.mp hj
    simp only [Function.onFun, List.disjoint_cons_left, List.mem_cons, List.not_mem_nil, or_false,
      List.disjoint_nil_left, and_true]
    omega
  · intro j hj k hk
    have := List.mem_range.mp hj
    obtain ⟨i, _, hk⟩ := List.mem_flatMap.mp hk
    simp only [List.mem_cons, List.not_mem_nil, or_false] at hk
    omega

/-- The columns of the goal at position `j` agree with its variable: what is below the target
and what is above are amounts within their bounds, and make up for the difference. -/
structure Balances (p : DeviationProgram Rat) (y : Nat → Rat) (g : DeviationGoal Rat) (j : Nat) :
    Prop where
  below_nonneg : 0 ≤ y (p.vars.length + j)
  below_le : y (p.vars.length + j) ≤ max g.target p.income
  above_nonneg : 0 ≤ y (p.vars.length + p.goals.length + j)
  above_le : y (p.vars.length + p.goals.length + j) ≤ p.income
  balance : y g.index + y (p.vars.length + j) - y (p.vars.length + p.goals.length + j) = g.target

/-- A goal has its variable and its two columns in its row. -/
theorem form_goalRow {g : DeviationGoal Rat} {j : Nat} (hg : g ∈ p.goals)
    (hj : j < p.goals.length) (y : Nat → Rat) :
    form (sparse p.width [(g.index, 1), (p.vars.length + j, 1),
        (p.vars.length + p.goals.length + j, -1)]) y =
      y g.index + y (p.vars.length + j) - y (p.vars.length + p.goals.length + j) := by
  have hi : g.index < p.vars.length := p.index_lt g hg
  have hwidth : p.width = p.vars.length + 2 * p.goals.length := rfl
  rw [form_sparse]
  · simp only [List.map_cons, List.map_nil, List.sum_cons, List.sum_nil]
    ring
  · simp only [List.map_cons, List.map_nil, List.nodup_cons, List.mem_cons, List.not_mem_nil,
      or_false, not_false_eq_true, List.nodup_nil, and_true]
    omega
  · simp only [List.mem_cons, List.not_mem_nil, or_false]
    rintro t (rfl | rfl | rfl) <;> simp only <;> omega

/-- The row of a goal balances its variable, what is below and what is above. -/
theorem goalRow_holds_iff {g : DeviationGoal Rat} {j : Nat} (hg : g ∈ p.goals)
    (hj : j < p.goals.length) :
    (⟨sparse p.width [(g.index, 1), (p.vars.length + j, 1),
        (p.vars.length + p.goals.length + j, -1)], .equal, g.target⟩ : Row Rat).Holds point ↔
      point.getD g.index 0 + point.getD (p.vars.length + j) 0 -
        point.getD (p.vars.length + p.goals.length + j) 0 = g.target := by
  rw [Row.Holds, Relation.Holds, dot_eq_form, form_goalRow hg hj]

/-- The points of the program, column by column. -/
theorem feasible_linearCalls_iff :
    (Program.ofCalls p.width p.linearCalls).Feasible point ↔ point.length = p.width ∧
      p.Affords p.upperLimit (point.take p.vars.length) ∧
      ∀ j g, p.goals[j]? = some g → p.Balances (fun i => point.getD i 0) g j := by
  have hlt : ∀ pair ∈ Program.statedColumns p.linearCalls, pair.1 < p.width := fun pair hpair =>
    mem_keys_statedColumns_linearCalls.mp (List.mem_map_of_mem hpair)
  -- Every column has its bounds stated, so no default is left to read.
  have hrest : ∀ j < p.width, j ∉ (Program.statedColumns p.linearCalls).map Prod.fst →
      0 ≤ point.getD j 0 := fun j hj hnot =>
    absurd (mem_keys_statedColumns_linearCalls.mpr hj) hnot
  rw [Program.feasible_ofCalls_iff nodup_keys_statedColumns_linearCalls hlt, and_iff_right hrest,
    and_congr_right_iff]
  intro hlen
  have hle : p.vars.length ≤ point.length := by
    rw [hlen, width]
    omega
  -- Columns of variables and of goals, the rows of the goals, the budget row, in the order they are
  -- stated.
  rw [GoalProgram.affords_take_iff hle, statedColumns_linearCalls, statedRows_linearCalls,
    List.forall_mem_append, List.forall_mem_append, List.forall_mem_singleton,
    GoalProgram.budgetRow_holds_iff, List.forall_mem_map, List.forall_mem_flatMap]
  simp only [List.forall_mem_cons (a := (_, _)), Program.allows_continuous_iff, Prod.forall,
    List.mk_mem_zipIdx_iff_getElem?]
  constructor
  · rintro ⟨⟨hvars, hgoals⟩, hrows, hsum⟩
    refine ⟨⟨hvars, hsum⟩, ?_⟩
    intro j g hg
    obtain ⟨⟨hbelow, hbelow'⟩, ⟨habove, habove'⟩, _⟩ := hgoals g j hg
    rw [greatest_eq_max] at hbelow'
    obtain ⟨hj, _⟩ := List.getElem?_eq_some_iff.mp hg
    have hrow := (goalRow_holds_iff (List.mem_of_getElem? hg) hj).mp (hrows g j hg)
    exact ⟨hbelow, hbelow', habove, habove', hrow⟩
  · rintro ⟨⟨hvars, hsum⟩, hgoals⟩
    refine ⟨⟨hvars, ?_⟩, ?_, hsum⟩
    · intro g j hg
      have h := hgoals j g hg
      rw [greatest_eq_max]
      exact ⟨⟨h.below_nonneg, h.below_le⟩, ⟨h.above_nonneg, h.above_le⟩, nofun⟩
    · intro g j hg
      obtain ⟨hj, _⟩ := List.getElem?_eq_some_iff.mp hg
      exact (goalRow_holds_iff (List.mem_of_getElem? hg) hj).mpr (hgoals j g hg).balance

/-! ## The objective -/

/-- The objective is that of the penalties, to be made small. -/
theorem objective_linearCalls :
    (Program.ofCalls p.width p.linearCalls).objective = p.penalties ∧
      (Program.ofCalls p.width p.linearCalls).maximize = false := by
  refine Program.objective_ofCalls fun coeffs maximize => ?_
  simp [goalCalls]

/-- What the columns of a goal cost: what is below and what is above, as far as unwanted. -/
def cost (g : DeviationGoal Rat) (below above : Rat) : Rat :=
  (if g.side = .atMost then 0 else 0 + g.weight) * below +
    (if g.side = .atLeast then 0 else 0 + g.weight) * above

/-- The objective at a point is the cost of all goals. -/
theorem value_linearCalls (point : List Rat) :
    (Program.ofCalls p.width p.linearCalls).value point =
      (p.goals.zipIdx.map fun e =>
        cost e.1 (point.getD (p.vars.length + e.2) 0)
          (point.getD (p.vars.length + p.goals.length + e.2) 0)).sum := by
  simp only [cost]
  rw [Program.value, objective_linearCalls.1, dot_eq_form, penalties, form_append, form_append,
    List.map_const', form_replicate_zero, zero_add, form_map_items, form_map_items,
    List.sum_map_add, List.length_append, List.length_replicate, List.length_map]

/-- However the difference to the target is made up for, it costs the deviation at least. -/
theorem weight_mul_deviation_le_cost {g : DeviationGoal Rat} {a below above : Rat}
    (hweight : 0 ≤ g.weight) (hbelow : 0 ≤ below) (habove : 0 ≤ above)
    (h : a + below - above = g.target) : g.weight * g.deviation a ≤ cost g below above := by
  rw [DeviationGoal.deviation, cost]
  cases g.side with
  | atLeast =>
    have hle : max 0 (g.target - a) ≤ below := max_le hbelow (by linarith)
    simpa [Side.deviation] using mul_le_mul_of_nonneg_left hle hweight
  | atMost =>
    have hle : max 0 (a - g.target) ≤ above := max_le habove (by linarith)
    simpa [Side.deviation] using mul_le_mul_of_nonneg_left hle hweight
  | exactly =>
    have hle : |a - g.target| ≤ below + above := abs_le.mpr ⟨by linarith, by linarith⟩
    have hcost := mul_le_mul_of_nonneg_left hle hweight
    simpa [Side.deviation, mul_add] using hcost

/-- The true shortfall and the true excess cost the deviation. -/
theorem cost_true (g : DeviationGoal Rat) (a : Rat) :
    cost g (max 0 (g.target - a)) (max 0 (a - g.target)) = g.weight * g.deviation a := by
  rw [DeviationGoal.deviation, cost]
  cases g.side with
  | atLeast => simp [Side.deviation]
  | atMost => simp [Side.deviation]
  | exactly =>
    rcases le_total a g.target with h | h
    · simp [Side.deviation, h, abs_of_nonpos]
    · simp [Side.deviation, h, abs_of_nonneg]

/-- The weighted deviation, goal by goal with positions. -/
theorem weightedDeviation_eq (x : List Rat) : p.weightedDeviation x =
    (p.goals.zipIdx.map fun e => e.1.weight * e.1.deviation (x.getD e.1.index 0)).sum := by
  rw [weightedDeviation, ← List.zipIdx_map_fst 0 p.goals, List.map_map, List.zipIdx_map_fst]
  rfl

/-- At every point the columns of the goals cost the weighted deviation of the allocation in
front, or more. -/
theorem weightedDeviation_le_value (hweight : ∀ g ∈ p.goals, 0 ≤ g.weight)
    (h : (Program.ofCalls p.width p.linearCalls).Feasible point) :
    p.weightedDeviation (point.take p.vars.length) ≤
      (Program.ofCalls p.width p.linearCalls).value point := by
  obtain ⟨_, _, hgoals⟩ := feasible_linearCalls_iff.mp h
  rw [value_linearCalls, weightedDeviation_eq]
  refine List.sum_le_sum fun e he => ?_
  have hat : p.goals[e.2]? = some e.1 := List.mk_mem_zipIdx_iff_getElem?.mp he
  have hmem := List.mem_of_getElem? hat
  obtain ⟨hbelow, _, habove, _, hbalance⟩ := hgoals e.2 e.1 hat
  have hindex : e.1.index < p.vars.length := p.index_lt e.1 hmem
  rw [getD_take_of_lt hindex]
  exact weight_mul_deviation_le_cost (hweight e.1 hmem) hbelow habove hbalance

/-! ## From allocations to points -/

/-- The point of the program that an allocation leads to: behind it the true shortfalls, then
the true excesses. -/
def pointOf (p : DeviationProgram Rat) (x : List Rat) : List Rat :=
  x ++ p.goals.map (fun g => max 0 (g.target - x.getD g.index 0)) ++
    p.goals.map fun g => max 0 (x.getD g.index 0 - g.target)

section
variable (hx : p.Affords p.upperLimit x)

include hx

theorem take_pointOf : (p.pointOf x).take p.vars.length = x := by
  rw [pointOf, List.append_assoc, ← hx.length]
  exact List.take_left

theorem getD_pointOf_variable {i : Nat} (hi : i < p.vars.length) :
    (p.pointOf x).getD i 0 = x.getD i 0 := by
  rw [← getD_take_of_lt hi, take_pointOf hx]

theorem getD_pointOf_below {j : Nat} {g : DeviationGoal Rat} (hg : p.goals[j]? = some g) :
    (p.pointOf x).getD (p.vars.length + j) 0 = max 0 (g.target - x.getD g.index 0) := by
  obtain ⟨hj, rfl⟩ := List.getElem?_eq_some_iff.mp hg
  have hlen := hx.length
  rw [pointOf, List.append_assoc, List.getD_append_right _ _ _ _ (by omega), hlen,
    Nat.add_sub_cancel_left, List.getD_append _ _ _ _ (by rwa [List.length_map]),
    List.getD_eq_getElem _ _ (by rwa [List.length_map]), List.getElem_map]

theorem getD_pointOf_above {j : Nat} {g : DeviationGoal Rat} (hg : p.goals[j]? = some g) :
    (p.pointOf x).getD (p.vars.length + p.goals.length + j) 0 =
      max 0 (x.getD g.index 0 - g.target) := by
  obtain ⟨hj, rfl⟩ := List.getElem?_eq_some_iff.mp hg
  have hlen : (x ++ p.goals.map fun g => max 0 (g.target - x.getD g.index 0)).length =
      p.vars.length + p.goals.length := by
    rw [List.length_append, List.length_map, hx.length]
  rw [pointOf, List.getD_append_right _ _ _ _ (by omega), hlen, Nat.add_sub_cancel_left,
    List.getD_eq_getElem _ _ (by rwa [List.length_map]), List.getElem_map]

/-- No bound of the columns behind cuts an allocation off. -/
theorem feasible_pointOf (htarget : ∀ g ∈ p.goals, 0 ≤ g.target) :
    (Program.ofCalls p.width p.linearCalls).Feasible (p.pointOf x) := by
  rw [feasible_linearCalls_iff, take_pointOf hx]
  refine ⟨?_, hx, ?_⟩
  · simp only [pointOf, width, List.length_append, List.length_map, hx.length]
    omega
  · intro j g hg
    have htarget := htarget g (List.mem_of_getElem? hg)
    have hindex : g.index < p.vars.length := p.index_lt g (List.mem_of_getElem? hg)
    have hnonneg := hx.amount_nonneg g.index
    have hle := hx.amount_le_income g.index
    refine ⟨?_, ?_, ?_, ?_, ?_⟩
    · rw [getD_pointOf_below hx hg]
      exact le_max_left _ _
    · rw [getD_pointOf_below hx hg]
      exact max_le (htarget.trans (le_max_left _ _))
        ((sub_le_self _ hnonneg).trans (le_max_left _ _))
    · rw [getD_pointOf_above hx hg]
      exact le_max_left _ _
    · rw [getD_pointOf_above hx hg]
      exact max_le (hnonneg.trans hle) ((sub_le_self _ htarget).trans hle)
    -- One of the two deviations is zero, the other the difference.
    · rw [getD_pointOf_variable hx hindex, getD_pointOf_below hx hg, getD_pointOf_above hx hg]
      rcases le_total (x.getD g.index 0) g.target with h | h
      · rw [max_eq_right (sub_nonneg.mpr h), max_eq_left (sub_nonpos.mpr h)]
        ring
      · rw [max_eq_left (sub_nonpos.mpr h), max_eq_right (sub_nonneg.mpr h)]
        ring

/-- There the objective is the weighted deviation. -/
theorem value_pointOf :
    (Program.ofCalls p.width p.linearCalls).value (p.pointOf x) = p.weightedDeviation x := by
  rw [value_linearCalls, weightedDeviation_eq]
  refine congrArg List.sum (List.map_congr_left fun e he => ?_)
  have hat : p.goals[e.2]? = some e.1 := List.mk_mem_zipIdx_iff_getElem?.mp he
  rw [getD_pointOf_below hx hat, getD_pointOf_above hx hat, cost_true]

end

/-- An optimal point has an optimal allocation in front. -/
theorem weightedDeviation_le_of_isOptimal (htarget : ∀ g ∈ p.goals, 0 ≤ g.target)
    (hweight : ∀ g ∈ p.goals, 0 ≤ g.weight)
    (h : (Program.ofCalls p.width p.linearCalls).IsOptimal point) (hx : p.Affords p.upperLimit x) :
    p.weightedDeviation (point.take p.vars.length) ≤ p.weightedDeviation x := by
  have hgood := h.2 _ (feasible_pointOf hx htarget)
  rw [Program.AsGood, objective_linearCalls.2, if_neg Bool.false_ne_true, value_pointOf hx] at hgood
  exact (weightedDeviation_le_value hweight h.1).trans hgood

/-- An optimal allocation leads to an optimal point. -/
theorem isOptimal_pointOf (htarget : ∀ g ∈ p.goals, 0 ≤ g.target)
    (hweight : ∀ g ∈ p.goals, 0 ≤ g.weight) (hx : p.Affords p.upperLimit x)
    (h : ∀ y, p.Affords p.upperLimit y → p.weightedDeviation x ≤ p.weightedDeviation y) :
    (Program.ofCalls p.width p.linearCalls).IsOptimal (p.pointOf x) := by
  refine ⟨feasible_pointOf hx htarget, fun point hpoint => ?_⟩
  rw [Program.AsGood, objective_linearCalls.2, if_neg Bool.false_ne_true, value_pointOf hx]
  exact (h _ (feasible_linearCalls_iff.mp hpoint).2.1).trans
    (weightedDeviation_le_value hweight hpoint)

/-! ## The solution -/

/-- The program loses nothing: every allocation that the income affords is the front of a
point that costs its weighted deviation, and no point costs less than the allocation in
front. So a solver that finds an optimal point gives the variables amounts with the least
weighted deviation. -/
theorem solveLinear_optimal (hvars : p.vars ≠ []) (hids : (p.vars.map (·.id)).Nodup)
    (htarget : ∀ g ∈ p.goals, 0 ≤ g.target) (hweight : ∀ g ∈ p.goals, 0 ≤ g.weight) :
    (∀ x, p.Affords p.upperLimit x → ∃ point,
      (Program.ofCalls p.width p.linearCalls).Feasible point ∧ point.take p.vars.length = x ∧
        (Program.ofCalls p.width p.linearCalls).value point = p.weightedDeviation x) ∧
    (∀ point, (Program.ofCalls p.width p.linearCalls).Feasible point →
      p.Affords p.upperLimit (point.take p.vars.length) ∧
        p.weightedDeviation (point.take p.vars.length) ≤
          (Program.ofCalls p.width p.linearCalls).value point) ∧
    ∀ (backend : Nat → Except (Fault Rat) (Backend Rat)) (b : Backend Rat),
      backend p.width = .ok b → b.Optimizes p.width p.linearCalls →
        ∃ r x, p.solveLinear backend = .ok r ∧
          r.variableValues.entries = (p.vars.map (·.id)).zip x ∧ p.Affords p.upperLimit x ∧
          ∀ y, p.Affords p.upperLimit y → p.weightedDeviation x ≤ p.weightedDeviation y := by
  refine ⟨?_, ?_, ?_⟩
  · intro x hx
    exact ⟨p.pointOf x, feasible_pointOf hx htarget, take_pointOf hx, value_pointOf hx⟩
  · intro point hpoint
    exact ⟨(feasible_linearCalls_iff.mp hpoint).2.1, weightedDeviation_le_value hweight hpoint⟩
  · intro backend b hb hoptimizes
    obtain ⟨answer, hanswer, hstatus, hoptimal⟩ := hoptimizes
    have hx := (feasible_linearCalls_iff.mp hoptimal.1).2.1
    obtain ⟨r, hr, hvalues⟩ := exists_summarize hx.length answer.status answer.iterations
    refine ⟨r, answer.solution.take p.vars.length, ?_, ?_, hx, fun y hy =>
      weightedDeviation_le_of_isOptimal htarget hweight hoptimal hy⟩
    · rw [solveLinear, if_neg (by simpa using hvars),
        checkMinimums_of_le hx.sumOfMinimums_le, hb]
      show (b.run p.linearCalls).answer >>= _ = _
      rw [hanswer]
      exact (if_pos hstatus).trans hr
    · rw [hvalues, GoalProgram.entries_valuesById hids hx.length]

/-- Two needs that cannot both be met: the one that counts more is, the other falls short. -/
def twoNeeds : DeviationProgram Rat where
  income := 100
  vars := [⟨"food", "food", .category, 20, 80, by decide, by decide⟩,
    ⟨"fun", "fun", .category, 0, 60, by decide, by decide⟩]
  goals := [⟨"eat", 0, 60, .atLeast, 1, 2, ""⟩, ⟨"play", 1, 60, .exactly, 1, 1, ""⟩,
    ⟨"modest", 0, 70, .atMost, 1, 1, ""⟩]
  index_lt := by decide

/-- The income affords sixty and forty. -/
theorem affords_twoNeeds : twoNeeds.Affords twoNeeds.upperLimit [60, 40] := by
  refine ⟨.cons ⟨?_, ?_⟩ (.cons ⟨?_, ?_⟩ .nil), ?_⟩ <;>
    norm_num [twoNeeds, upperLimit, Limit.Allows, Variable.upperBound, Variable.isBounded]

/-- No way to share the income deviates less. -/
theorem weightedDeviation_twoNeeds (y : List Rat) (hy : twoNeeds.Affords twoNeeds.upperLimit y) :
    twoNeeds.weightedDeviation [60, 40] ≤ twoNeeds.weightedDeviation y := by
  obtain ⟨a, b, rfl⟩ := List.length_eq_two.mp hy.length
  have hsum : a + b ≤ 100 := by simpa [twoNeeds] using hy.sum_le
  have hleast : twoNeeds.weightedDeviation [60, 40] = 20 := by decide +kernel
  have heat := le_max_right 0 (60 - a)
  have hshort := le_max_left 0 (60 - a)
  have hplay := neg_abs_le (b - 60)
  have hmodest := le_max_left 0 (a - 70)
  rw [hleast]
  simp only [weightedDeviation, twoNeeds, DeviationGoal.deviation, Side.deviation, List.map_cons,
    List.map_nil, List.sum_cons, List.sum_nil, List.getD_cons_zero, List.getD_cons_succ,
    greatest_eq_max, magnitude_eq_abs]
  linarith

/-- With a solver that shares it so the result deviates least. -/
theorem solveLinear_optimal_twoNeeds :
    (∀ g ∈ twoNeeds.goals, 0 ≤ g.target) ∧ (∀ g ∈ twoNeeds.goals, 0 ≤ g.weight) ∧ ∃ r x,
      twoNeeds.solveLinear
        (fun n => .ok (.scripted .optimal (twoNeeds.pointOf [60, 40]) n)) = .ok r ∧
      r.variableValues.entries = ["food", "fun"].zip x ∧
      twoNeeds.Affords twoNeeds.upperLimit x ∧
      ∀ y, twoNeeds.Affords twoNeeds.upperLimit y →
        twoNeeds.weightedDeviation x ≤ twoNeeds.weightedDeviation y := by
  have htarget : ∀ g ∈ twoNeeds.goals, 0 ≤ g.target := by decide
  have hweight : ∀ g ∈ twoNeeds.goals, 0 ≤ g.weight := by decide
  have hoptimal := isOptimal_pointOf htarget hweight affords_twoNeeds weightedDeviation_twoNeeds
  have hsolve := (solveLinear_optimal (p := twoNeeds) (by decide) (by decide) htarget hweight).2.2
  exact ⟨htarget, hweight, hsolve _ _ rfl (Backend.optimizes_scripted hoptimal)⟩

end GoalBudget.DeviationProgram
