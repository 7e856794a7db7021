import GoalBudget.Proofs.Program.Stated
import GoalBudget.Proofs.Strategy.Funds

/-!
# What an income affords

An allocation gives every variable an amount. `GoalProgram.Affords` says that each amount is at
least the lower bound and within an upper limit, and that all amounts together are no more than the
income. It is what an optimum is compared with, whatever the strategy; the strategies differ in the
limit that they state.

No amount is negative, so none is above the income (`amount_le_income`).

The second section connects this with programs. Every strategy that asks a solver states bounds for
its variables, one row for the income, and then what is its own. The bounds and the row hold at a
point if and only if the front of the point is an allocation that the income affords
(`affords_take_iff`, `feasible_statements_iff`); what else is stated is left to the strategy.

The third section is about results: an affordable allocation is not changed by being moved within
the bounds, it is reported as feasible, and its amounts are found under the ids of their variables.
-/

namespace GoalBudget

theorem getD_le_sum {xs : List Rat} (h : ∀ x ∈ xs, 0 ≤ x) (i : Nat) : xs.getD i 0 ≤ xs.sum := by
  by_cases hi : i < xs.length
  · rw [List.getD_eq_getElem _ _ hi]
    exact List.single_le_sum h _ (List.getElem_mem hi)
  · rw [List.getD_eq_default _ _ (not_lt.mp hi)]
    exact List.sum_nonneg h

theorem deviationTolerance_nonneg : (0 : Rat) ≤ deviationTolerance := by
  show (0 : Rat) ≤ 0.01
  norm_num

/-- Lower bounds that fit into the income pass the check. -/
theorem checkMinimums_of_le {vars : List (Variable Rat)} {income : Rat}
    (h : sumOfMinimums vars ≤ income) : checkMinimums vars income = .ok () := by
  exact if_neg (not_lt.mpr (h.trans (le_add_of_nonneg_right deviationTolerance_nonneg)))

namespace GoalProgram

variable {γ : Type} [Scores γ] {p : GoalProgram Rat γ} {upper : Variable Rat → Limit Rat}
  {x : List Rat}

/-- Whether amounts of all variables are within their bounds and add up to no more than the
income. -/
structure Affords (p : GoalProgram Rat γ) (upper : Variable Rat → Limit Rat) (x : List Rat) :
    Prop where
  /-- Every amount is at least the lower bound of its variable and within the limit above. -/
  within : List.Forall₂ (fun v a => v.minimum ≤ a ∧ (upper v).Allows a) p.vars x
  /-- All amounts together are no more than the income. -/
  sum_le : x.sum ≤ p.income

instance (limit : Limit Rat) (a : Rat) : Decidable (limit.Allows a) :=
  match limit with
  | .upTo bound => inferInstanceAs (Decidable (a ≤ bound))
  | .endless => inferInstanceAs (Decidable True)

instance : Decidable (p.Affords upper x) :=
  decidable_of_iff (List.Forall₂ (fun v a => v.minimum ≤ a ∧ (upper v).Allows a) p.vars x ∧
    x.sum ≤ p.income) ⟨fun h => ⟨h.1, h.2⟩, fun h => ⟨h.within, h.sum_le⟩⟩

/-- Amounts that an income affords, read off at every position. -/
theorem affords_iff : p.Affords upper x ↔ x.length = p.vars.length ∧
    (∀ i v, p.vars[i]? = some v → v.minimum ≤ x.getD i 0 ∧ (upper v).Allows (x.getD i 0)) ∧
    x.sum ≤ p.income := by
  constructor
  · intro h
    obtain ⟨hlen, hat⟩ := List.forall₂_iff_get.mp h.within
    refine ⟨hlen.symm, ?_, h.sum_le⟩
    intro i v hv
    obtain ⟨hi, rfl⟩ := List.getElem?_eq_some_iff.mp hv
    rw [List.getD_eq_getElem _ _ (hlen ▸ hi)]
    exact hat i hi (hlen ▸ hi)
  · intro h
    obtain ⟨hlen, hat, hsum⟩ := h
    refine ⟨List.forall₂_iff_get.mpr ⟨hlen.symm, ?_⟩, hsum⟩
    intro i hi hx
    have hvalue := hat i _ (List.getElem?_eq_getElem hi)
    rwa [List.getD_eq_getElem _ _ hx] at hvalue

namespace Affords

/-- There is one amount for each variable. -/
theorem length (h : p.Affords upper x) : x.length = p.vars.length := (affords_iff.mp h).1

/-- The amount of a variable that exists is within its limits. -/
theorem bounds (h : p.Affords upper x) {i : Nat} {v : Variable Rat} (hv : p.vars[i]? = some v) :
    v.minimum ≤ x.getD i 0 ∧ (upper v).Allows (x.getD i 0) :=
  (affords_iff.mp h).2.1 i v hv

theorem amounts_nonneg (h : p.Affords upper x) (a : Rat) (ha : a ∈ x) : 0 ≤ a := by
  obtain ⟨i, hi, rfl⟩ := List.mem_iff_getElem.mp ha
  have hat := (h.bounds (List.getElem?_eq_getElem (h.length ▸ hi))).1
  rw [List.getD_eq_getElem _ _ hi] at hat
  exact (Variable.minimum_nonneg _).trans hat

/-- No amount is negative, and where there is none it counts as zero. -/
theorem amount_nonneg (h : p.Affords upper x) (i : Nat) : 0 ≤ x.getD i 0 := by
  by_cases hi : i < x.length
  · rw [List.getD_eq_getElem _ _ hi]
    exact h.amounts_nonneg _ (List.getElem_mem hi)
  · rw [List.getD_eq_default _ _ (not_lt.mp hi)]

/-- No variable takes more than the income. -/
theorem amount_le_income (h : p.Affords upper x) (i : Nat) : x.getD i 0 ≤ p.income :=
  (getD_le_sum h.amounts_nonneg i).trans h.sum_le

/-- An income that affords anything affords the lower bounds. -/
theorem sumOfMinimums_le (h : p.Affords upper x) : sumOfMinimums p.vars ≤ p.income := by
  rw [sumOfMinimums, total_eq_sum]
  refine (List.Forall₂.sum_le_sum ?_).trans h.sum_le
  rw [List.forall₂_map_left_iff]
  exact h.within.imp fun v a hva => hva.1

end Affords

/-! ## Bounds and budget as statements -/

/-- The columns of variables, in order, with their lower bounds and limits above. -/
def boundColumns (vars : List (Variable Rat)) (upper : Variable Rat → Limit Rat) :
    List (Nat × Column Rat) :=
  vars.zipIdx.map fun v => (v.2, ⟨v.1.minimum, upper v.1, false⟩)

/-- The bounds of variables state their columns. -/
theorem statedColumns_bounds (vars : List (Variable Rat)) (upper : Variable Rat → Limit Rat) :
    (vars.zipIdx.map fun v => (.bounds v.2 v.1.minimum (upper v.1) : Call Rat)).filterMap
      Call.statedColumn = boundColumns vars upper := by
  rw [List.filterMap_map, boundColumns, ← List.filterMap_eq_map]
  rfl

/-- The bounds of variables state no row. -/
theorem statedRows_bounds (vars : List (Variable Rat)) (upper : Variable Rat → Limit Rat) :
    (vars.zipIdx.map fun v => (.bounds v.2 v.1.minimum (upper v.1) : Call Rat)).filterMap
      Call.statedRow = [] := by
  rw [List.filterMap_map, List.filterMap_eq_nil_iff]
  exact fun _ _ => rfl

/-- Every variable has the column of its position. -/
theorem keys_boundColumns (vars : List (Variable Rat)) (upper : Variable Rat → Limit Rat) :
    (boundColumns vars upper).map Prod.fst = List.range vars.length := by
  rw [boundColumns, List.map_map, List.range_eq_range', ← List.zipIdx_map_snd 0 vars]
  rfl

/-- The row that keeps the variables in front within the income. -/
theorem budgetRow_holds_iff (n k : Nat) (income : Rat) (point : List Rat) :
    (⟨List.replicate n 1 ++ List.replicate k 0, .atMost, income⟩ : Row Rat).Holds point ↔
      (point.take n).sum ≤ income := by
  rw [Row.Holds, dot_ones_append_zeros]
  rfl

/-- A point that respects the columns of the variables and the budget has an allocation in front
that the income affords. -/
theorem affords_take_iff {point : List Rat} (hlen : p.vars.length ≤ point.length) :
    p.Affords upper (point.take p.vars.length) ↔
      (∀ pair ∈ boundColumns p.vars upper, pair.2.Allows (point.getD pair.1 0)) ∧
        (point.take p.vars.length).sum ≤ p.income := by
  have hfront (i : Nat) (v : Variable Rat) (hv : p.vars[i]? = some v) :
      (point.take p.vars.length).getD i 0 = point.getD i 0 := by
    obtain ⟨hi, _⟩ := List.getElem?_eq_some_iff.mp hv
    exact getD_take_of_lt hi
  rw [affords_iff, and_iff_right (by rw [List.length_take]; omega), and_congr_left_iff,
    boundColumns, List.forall_mem_map]
  simp only [Program.allows_continuous_iff, Prod.forall, List.mk_mem_zipIdx_iff_getElem?]
  intro _
  constructor
  · intro h v i hv
    rw [← hfront i v hv]
    exact h i v hv
  · intro h i v hv
    rw [hfront i v hv]
    exact h v i hv

/-- The limit above that is stated for a variable in a program with a budget row. -/
def cappedLimit (p : GoalProgram Rat γ) (v : Variable Rat) : Limit Rat :=
  .upTo (min (v.upperBound p.income) p.income)

theorem boundCalls_eq : p.boundCalls =
    p.vars.zipIdx.map fun v => .bounds v.2 v.1.minimum (p.cappedLimit v.1) := by
  simp only [boundCalls, least_eq_min, cappedLimit]

section
variable {n : Nat} {coeffs : List Rat} {maximize : Bool} {rest : List (Call Rat)}

/-- The statements that a strategy makes: objective, bounds, budget, and what is stated about
the columns behind the variables. -/
def statements (p : GoalProgram Rat γ) (n : Nat) (coeffs : List Rat) (maximize : Bool)
    (rest : List (Call Rat)) : List (Call Rat) :=
  [.objective coeffs maximize] ++ p.boundCalls ++ [p.budgetCall n] ++ rest

/-- The columns stated are those of the variables and those of the rest. -/
theorem statedColumns_statements : Program.statedColumns (p.statements n coeffs maximize rest) =
    boundColumns p.vars p.cappedLimit ++ Program.statedColumns rest := by
  rw [← statedColumns_bounds, Program.statedColumns, statements, boundCalls_eq,
    List.filterMap_append, List.filterMap_append, List.filterMap_append]
  exact congrArg (· ++ _) (List.append_nil _)

/-- The rows stated are the budget row and those of the rest. -/
theorem statedRows_statements : (p.statements n coeffs maximize rest).filterMap Call.statedRow =
    ⟨List.replicate p.vars.length 1 ++ List.replicate (n - p.vars.length) 0, .atMost, p.income⟩ ::
      rest.filterMap Call.statedRow := by
  rw [statements, boundCalls_eq, List.filterMap_append, List.filterMap_append,
    List.filterMap_append, statedRows_bounds]
  rfl

/-- Where the columns behind the variables are all stated, every column is, in order. -/
theorem keys_statements (hn : p.vars.length ≤ n)
    (hrest : (Program.statedColumns rest).map Prod.fst =
      List.range' p.vars.length (n - p.vars.length)) :
    (Program.statedColumns (p.statements n coeffs maximize rest)).map Prod.fst = List.range n := by
  have happend : List.range' 0 p.vars.length ++ List.range' (0 + p.vars.length)
      (n - p.vars.length) = List.range' 0 (p.vars.length + (n - p.vars.length)) :=
    List.range'_append_1
  rw [Nat.zero_add, Nat.add_sub_cancel' hn] at happend
  rw [statedColumns_statements, List.map_append, keys_boundColumns, hrest,
    List.range_eq_range', List.range_eq_range', happend]

/-- The points of a program whose columns behind the variables are all stated: amounts that
the income affords in front, and whatever respects the rest. -/
theorem feasible_statements_iff (hn : p.vars.length ≤ n)
    (hrest : (Program.statedColumns rest).map Prod.fst =
      List.range' p.vars.length (n - p.vars.length)) {point : List Rat} :
    (Program.ofCalls n (p.statements n coeffs maximize rest)).Feasible point ↔
      point.length = n ∧ p.Affords p.cappedLimit (point.take p.vars.length) ∧
        (∀ pair ∈ Program.statedColumns rest, pair.2.Allows (point.getD pair.1 0)) ∧
        ∀ r ∈ rest.filterMap Call.statedRow, r.Holds point := by
  have hkeys : (Program.statedColumns (p.statements n coeffs maximize rest)).map Prod.fst =
      List.range n := keys_statements hn hrest
  have hmem (j : Nat) : j ∈ (Program.statedColumns (p.statements n coeffs maximize rest)).map
      Prod.fst ↔ j < n := by
    rw [hkeys, List.mem_range]
  have hunstated : ∀ j < n, j ∉ (Program.statedColumns (p.statements n coeffs maximize rest)).map
      Prod.fst → 0 ≤ point.getD j 0 := fun j hj hnot => absurd ((hmem j).mpr hj) hnot
  rw [Program.feasible_ofCalls_iff (hkeys ▸ List.nodup_range)
      (fun pair hpair => (hmem _).mp (List.mem_map_of_mem hpair)),
    and_iff_right hunstated, and_congr_right_iff]
  intro hlen
  rw [affords_take_iff (hlen ▸ hn), statedColumns_statements, statedRows_statements,
    List.forall_mem_append, List.forall_mem_cons, budgetRow_holds_iff]
  tauto

/-- The objective is the one stated first, if no other is stated later. -/
theorem objective_statements (h : ∀ coeffs maximize, Call.objective coeffs maximize ∉ rest) :
    (Program.ofCalls n (p.statements n coeffs maximize rest)).objective = coeffs ∧
      (Program.ofCalls n (p.statements n coeffs maximize rest)).maximize = maximize := by
  refine Program.objective_ofCalls fun coeffs maximize => ?_
  simp [boundCalls, budgetCall, h]

end

/-! ## Results -/

/-- What an income affords is not moved within the bounds. -/
theorem clampSolution_of_affords {solution : List Rat}
    (h : p.Affords p.cappedLimit (solution.take p.vars.length)) :
    p.clampSolution solution = solution.take p.vars.length := by
  refine List.ext_getElem (by rw [clampSolution, List.length_zipWith, List.length_take,
    Nat.min_comm]) fun i hi hi' => ?_
  obtain ⟨habove, hbelow⟩ := h.bounds (List.getElem?_eq_getElem (h.length ▸ hi'))
  rw [List.getD_eq_getElem _ _ hi', List.getElem_take] at habove hbelow
  have hle := hbelow.trans (min_le_left _ _)
  simp only [clampSolution, List.getElem_zipWith, List.getElem_take, Variable.clamp,
    greatest_eq_max, least_eq_min, max_eq_left habove, min_eq_left hle]

/-- What an income affords is feasible. -/
theorem nearlyFeasible_of_affords (h : p.Affords p.cappedLimit x) :
    nearlyFeasible p.vars p.income x = true := by
  have htolerance := deviationTolerance_nonneg
  rw [nearlyFeasible, Bool.and_eq_true, decide_eq_true_eq, total_eq_sum, List.all_eq_true]
  refine ⟨h.sum_le.trans (le_add_of_nonneg_right htolerance), fun pair hpair => ?_⟩
  obtain ⟨habove, hbelow⟩ := (List.forall₂_iff_zip.mp h.within).2 hpair
  rw [Variable.nearlyAllows, Bool.and_eq_true, Bool.or_eq_true, decide_eq_true_eq,
    decide_eq_true_eq, Bool.not_eq_true']
  refine ⟨(sub_le_self _ htolerance).trans habove, ?_⟩
  cases hbounded : pair.1.isBounded with
  | false => exact .inl rfl
  | true =>
    right
    have hle := hbelow.trans (min_le_left _ _)
    rw [Variable.upperBound, if_pos hbounded] at hle
    exact hle.trans (le_add_of_nonneg_right htolerance)

/-- Amounts of variables with distinct ids are listed in the order of the variables. -/
theorem entries_valuesById (hids : (p.vars.map (·.id)).Nodup) (hlen : x.length = p.vars.length) :
    (p.valuesById x).entries = (p.vars.map (·.id)).zip x := by
  refine Ledger.entries_ofList ?_
  rw [List.map_fst_zip (by rw [List.length_map]; omega)]
  exact hids

/-- The amount of a variable is listed under its id. -/
theorem get?_valuesById (hids : (p.vars.map (·.id)).Nodup) (hlen : x.length = p.vars.length)
    {i : Nat} {v : Variable Rat} (hv : p.vars[i]? = some v) :
    (p.valuesById x).get? v.id = some (x.getD i 0) := by
  obtain ⟨hi, rfl⟩ := List.getElem?_eq_some_iff.mp hv
  have hx : i < x.length := hlen ▸ hi
  rw [Ledger.get?_eq_some_iff, entries_valuesById hids hlen, List.getD_eq_getElem _ _ hx]
  refine List.mem_iff_getElem.mpr ⟨i, ?_, ?_⟩
  · rw [List.length_zip, List.length_map]
    omega
  · rw [List.getElem_zip, List.getElem_map]

theorem values_valuesById (hids : (p.vars.map (·.id)).Nodup) (hlen : x.length = p.vars.length) :
    (p.valuesById x).values = x := by
  rw [Ledger.values, entries_valuesById hids hlen, List.map_snd_zip]
  rw [List.length_map, hlen]

/-- Amounts are listed by the ids of the variables, in their order. -/
theorem keys_valuesById (hids : (p.vars.map (·.id)).Nodup) (hlen : x.length = p.vars.length) :
    (p.valuesById x).keys = p.vars.map (·.id) := by
  rw [Ledger.keys, entries_valuesById hids hlen, List.map_fst_zip]
  rw [List.length_map, hlen]

end GoalProgram

/-- Amounts within their bounds are feasible if there is no more money than the income, but for
the tolerance. -/
theorem Funds.Sound.nearlyFeasible {vars : List (Variable Rat)} {money income : Rat}
    {f : Funds Rat} (h : f.Sound vars 0 money) (hmoney : money ≤ income + deviationTolerance) :
    nearlyFeasible vars income f.amounts = true := by
  have htolerance := deviationTolerance_nonneg
  have hbalance := h.balance
  have hleft := h.left_nonneg
  rw [GoalBudget.nearlyFeasible, Bool.and_eq_true, decide_eq_true_eq, total_eq_sum,
    List.all_eq_true]
  refine ⟨by linarith, fun pair hpair => ?_⟩
  obtain ⟨i, hi⟩ := List.mem_iff_getElem?.mp hpair
  obtain ⟨hv, hx⟩ := List.getElem?_zip_eq_some.mp hi
  have hamount : f.amount i = pair.2 := by
    rw [Funds.amount, List.getD_eq_getElem?_getD, hx]
    rfl
  have habove := h.above i pair.1 hv
  rw [Variable.nearlyAllows, Bool.and_eq_true, Bool.or_eq_true, decide_eq_true_eq,
    decide_eq_true_eq, Bool.not_eq_true', ← hamount]
  refine ⟨by linarith, ?_⟩
  cases hbounded : pair.1.isBounded with
  | false => exact .inl rfl
  | true =>
    right
    have hbelow := h.below i pair.1 hv hbounded
    linarith

/-- What passes the check of the lower bounds is no more than the income, but for the
tolerance. -/
theorem max_income_le_of_checkMinimums {vars : List (Variable Rat)} {income : Rat}
    (h : checkMinimums vars income = .ok ()) :
    max income (sumOfMinimums vars) ≤ income + deviationTolerance := by
  have htolerance := deviationTolerance_nonneg
  unfold checkMinimums at h
  split at h
  next => cases h
  next hle => exact max_le (by linarith) (not_lt.mp hle)

end GoalBudget
