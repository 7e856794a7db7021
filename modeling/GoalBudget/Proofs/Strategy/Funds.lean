import GoalBudget.Proofs.Fault.Success
import GoalBudget.Proofs.Number.Exact
import GoalBudget.Proofs.Ledger.Lookup
import GoalBudget.Strategy.GoalProgram

/-!
# Funds within bounds

`Funds.Sound` is the invariant of every greedy run: variables stay within their bounds, but for some
slack above, what is left is not negative, and amounts and what is left make up the money there is.
It holds at the lower bounds (`exists_start`) and is kept whenever a variable is moved within its
bounds and what is left (`Sound.move`), which is all that the runs ever do. The slack is for
ladders, whose levels may lie above the upper bound of a variable by the tolerance of the check.

Where a run never lowers an amount, `Funds.Grows` says how its states stand to later ones: no
variable can come further than before. It is reflexive and transitive and kept by every purchase, so
it holds from any state of a run to any later one.

A result lists amounts by id, so that nothing in it is negative if no amount of the solution is:
`valuesById_nonneg`.
-/

namespace GoalBudget

theorem quotient_of_pos {x y : Rat} (h : 0 < y) : quotient x y = .ok (x / y) := by
  exact if_neg (by simpa using h.ne')

namespace Variable

variable {v : Variable Rat} {x y slack : Rat}

theorem minimum_nonneg (v : Variable Rat) : 0 ≤ v.minimum :=
  not_lt.mp fun h => v.bounds_nonneg (.inl h)

/-- An upper bound that is set is not below the lower one. -/
theorem minimum_le_of_isBounded (h : v.isBounded = true) : v.minimum ≤ v.maximum :=
  not_lt.mp fun hlt => v.minimum_le_maximum ⟨of_decide_eq_true h, hlt⟩

/-- The bound stated in place of a missing one is not below the lower one either. -/
theorem minimum_le_upperBound (v : Variable Rat) (fallback : Rat) :
    v.minimum ≤ v.upperBound fallback := by
  unfold upperBound
  split
  next h => exact minimum_le_of_isBounded h
  next => rw [greatest_eq_max]; exact le_max_right _ _

/-- An amount moved within the bounds is not below the lower one. -/
theorem minimum_le_clamp (v : Variable Rat) (fallback x : Rat) :
    v.minimum ≤ v.clamp fallback x := by
  rw [clamp, greatest_eq_max, least_eq_min]
  exact le_min (le_max_right _ _) (v.minimum_le_upperBound fallback)

/-- What is added to a bounded variable is no more than what it lacks. -/
theorem hold_headroom_le (h : v.isBounded = true) :
    (v.headroom x).hold y ≤ max 0 (v.maximum - x) := by
  rw [headroom, if_pos h, greatest_eq_max, Limit.hold_upTo]
  exact min_le_right _ _

end Variable

namespace Funds

/-- Amounts within the bounds of their variables, but for the slack above, that make up the
money together with what is left. -/
structure Sound (vars : List (Variable Rat)) (slack money : Rat) (f : Funds Rat) : Prop where
  /-- Every variable has an amount. -/
  length : f.amounts.length = vars.length
  /-- No amount is below its lower bound. -/
  above : ∀ i v, vars[i]? = some v → v.minimum ≤ f.amount i
  /-- No amount is beyond an upper bound, but for the slack. -/
  below : ∀ i v, vars[i]? = some v → v.isBounded = true → f.amount i ≤ v.maximum + slack
  /-- What is left is not negative. -/
  left_nonneg : 0 ≤ f.left
  /-- All money is given out or left. -/
  balance : f.amounts.sum + f.left = money

variable {vars : List (Variable Rat)} {slack money x : Rat} {f : Funds Rat} {i : Nat}

/-- Giving changes one amount. -/
theorem give_amounts (h : i < f.amounts.length) :
    (f.give i x).amounts = f.amounts.set i (f.amount i + x) := by
  rw [give, List.modify_eq_set, amount, List.getD_eq_getElem?_getD,
    List.getElem?_eq_getElem h]
  rfl

/-- Raising a variable to a value at the price of the difference is giving it the difference. -/
theorem raiseTo_eq_give {value : Rat} (h : i < f.amounts.length) :
    f.raiseTo i value (value - f.amount i) = f.give i (value - f.amount i) := by
  rw [raiseTo, ← add_sub_cancel (f.amount i) value, ← give_amounts h, add_sub_cancel]
  rfl

/-- Giving changes the amount of one variable. -/
theorem amount_give (h : i < f.amounts.length) (j : Nat) :
    (f.give i x).amount j = if j = i then f.amount i + x else f.amount j := by
  rw [amount, give_amounts h, List.getD_eq_getElem?_getD, List.getElem?_set]
  by_cases hj : i = j
  · rw [if_pos hj, if_pos h, if_pos hj.symm]
    rfl
  · rw [if_neg hj, if_neg (Ne.symm hj), amount, List.getD_eq_getElem?_getD]

/-- Giving leaves the other variables alone. -/
theorem amount_give_ne {j : Nat} (h : j ≠ i) : (f.give i x).amount j = f.amount j := by
  rw [amount, give, List.getD_eq_getElem?_getD, List.getElem?_modify_ne _ _ h.symm, amount,
    List.getD_eq_getElem?_getD]

/-- Whether no amount is lowered and no variable can come further than before. -/
structure Grows (f f' : Funds Rat) : Prop where
  amount_le : ∀ i, f.amount i ≤ f'.amount i
  reach_le : ∀ i, f'.amount i + f'.left ≤ f.amount i + f.left

variable {f' f'' : Funds Rat}

theorem Grows.refl (f : Funds Rat) : f.Grows f := ⟨fun _ => le_refl _, fun _ => le_refl _⟩

theorem Grows.trans (h : f.Grows f') (h' : f'.Grows f'') : f.Grows f'' :=
  ⟨fun i => (h.amount_le i).trans (h'.amount_le i), fun i => (h'.reach_le i).trans (h.reach_le i)⟩

/-- What is given is taken from what is left, so the variable comes no further by it, and the
others less far. -/
theorem grows_give (hi : i < f.amounts.length) (hx : 0 ≤ x) : f.Grows (f.give i x) := by
  constructor
  case amount_le =>
    intro j
    rw [amount_give hi]
    split
    next hj => exact hj ▸ le_add_of_nonneg_right hx
    next => exact le_refl _
  case reach_le =>
    intro j
    rw [amount_give hi]
    show (if j = i then f.amount i + x else f.amount j) + (f.left - x) ≤ f.amount j + f.left
    split
    next hj =>
      rw [hj]
      linarith
    next => linarith

/-- What is left does not grow. -/
theorem Grows.left_le (h : f.Grows f') : f'.left ≤ f.left := by
  have hamount := h.amount_le 0
  have hreach := h.reach_le 0
  linarith

theorem sum_give (h : i < f.amounts.length) : (f.give i x).amounts.sum = f.amounts.sum + x := by
  rw [give_amounts h, List.sum_set', dif_pos h, amount, List.getD_eq_getElem?_getD,
    List.getElem?_eq_getElem h, Option.getD_some]
  ring

/-- Amounts above lower bounds are not negative. -/
theorem amount_nonneg_of_above (hlength : f.amounts.length = vars.length)
    (habove : ∀ i v, vars[i]? = some v → v.minimum ≤ f.amount i) (i : Nat) : 0 ≤ f.amount i := by
  cases hv : vars[i]? with
  | none =>
    have hout : f.amounts[i]? = none := by
      rw [List.getElem?_eq_none_iff, hlength]
      exact List.getElem?_eq_none_iff.mp hv
    rw [amount, List.getD_eq_getElem?_getD, hout, Option.getD_none]
  | some v => exact v.minimum_nonneg.trans (habove i v hv)

namespace Sound

/-- No amount is negative, and where there is none it counts as zero. -/
theorem amount_nonneg (h : f.Sound vars slack money) (i : Nat) : 0 ≤ f.amount i :=
  amount_nonneg_of_above h.length h.above i

theorem amounts_nonneg (h : f.Sound vars slack money) (x : Rat) (hx : x ∈ f.amounts) : 0 ≤ x := by
  obtain ⟨i, hi, rfl⟩ := List.mem_iff_getElem.mp hx
  have hamount := h.amount_nonneg i
  rwa [amount, List.getD_eq_getElem?_getD, List.getElem?_eq_getElem hi, Option.getD_some]
    at hamount

/-- A variable moved within its bounds, by no more than what is left. -/
theorem move (h : f.Sound vars slack money) (hi : i < vars.length) (hleft : x ≤ f.left)
    (habove : ∀ v, vars[i]? = some v → v.minimum ≤ f.amount i + x)
    (hbelow : ∀ v, vars[i]? = some v → v.isBounded = true →
      f.amount i + x ≤ v.maximum + slack) : (f.give i x).Sound vars slack money := by
  have hlen : i < f.amounts.length := h.length ▸ hi
  refine ⟨?_, ?_, ?_, ?_, ?_⟩
  · rw [give, List.length_modify]
    exact h.length
  · intro j v hv
    rw [amount_give hlen]
    split
    next hj => exact habove v (hj ▸ hv)
    next => exact h.above j v hv
  · intro j v hv hbounded
    rw [amount_give hlen]
    split
    next hj => exact hbelow v (hj ▸ hv) hbounded
    next => exact h.below j v hv hbounded
  · exact sub_nonneg.mpr hleft
  · rw [sum_give hlen]
    show f.amounts.sum + x + (f.left - x) = money
    linarith [h.balance]

/-- A variable raised by no more than what is left, and no further than its upper bound. -/
theorem give (h : f.Sound vars slack money) (hi : i < vars.length) (hx : 0 ≤ x)
    (hleft : x ≤ f.left)
    (hbelow : ∀ v, vars[i]? = some v → v.isBounded = true →
      f.amount i + x ≤ v.maximum + slack) : (f.give i x).Sound vars slack money :=
  h.move hi hleft (fun v hv => (h.above i v hv).trans (le_add_of_nonneg_right hx)) hbelow

/-- A variable raised by no more than what is left and than its headroom. -/
theorem spend (h : f.Sound vars slack money) (hslack : 0 ≤ slack) (hi : i < vars.length)
    (hx : 0 ≤ x) (hleft : x ≤ f.left)
    (hroom : ∀ v, vars[i]? = some v → v.isBounded = true → x ≤ max 0 (v.maximum - f.amount i)) :
    (f.give i x).Sound vars slack money := by
  refine h.give hi hx hleft fun v hv hbounded => ?_
  have hbelow := h.below i v hv hbounded
  have hle := hroom v hv hbounded
  rcases max_choice 0 (v.maximum - f.amount i) with hmax | hmax
  · linarith
  · linarith

end Sound

/-- At the start every variable is at its lower bound. -/
theorem amount_start {income left : Rat} {amounts : List Rat}
    (h : startAtMinimums vars income = .ok (amounts, left)) {v : Variable Rat}
    (hv : vars[i]? = some v) : Funds.amount ⟨amounts, left⟩ i = v.minimum := by
  obtain ⟨_, _, h⟩ := bind_eq_ok.mp h
  cases pure_eq_ok.mp h
  rw [amount, List.getD_eq_getElem?_getD, List.getElem?_map, hv]
  rfl

/-- All variables at their lower bounds are within their bounds. -/
theorem sound_start {income left : Rat} {amounts : List Rat} (hslack : 0 ≤ slack)
    (h : startAtMinimums vars income = .ok (amounts, left)) :
    Sound vars slack (max income (sumOfMinimums vars)) ⟨amounts, left⟩ := by
  have hamount := fun i v => amount_start (i := i) (v := v) h
  obtain ⟨_, _, h⟩ := bind_eq_ok.mp h
  cases pure_eq_ok.mp h
  refine ⟨List.length_map _, ?_, ?_, ?_, ?_⟩
  · intro i v hv
    exact (hamount i v hv).ge
  · intro i v hv hbounded
    rw [hamount i v hv]
    exact (Variable.minimum_le_of_isBounded hbounded).trans (le_add_of_nonneg_right hslack)
  · rw [greatest_eq_max]
    exact le_max_left _ _
  · show (vars.map (·.minimum)).sum + greatest 0 (income - sumOfMinimums vars) = _
    rw [greatest_eq_max, sumOfMinimums, total_eq_sum, ← max_add_add_left, max_comm, add_zero,
      add_sub_cancel]

/-- Lower bounds that pass the check are a start. -/
theorem exists_start {income : Rat} (hslack : 0 ≤ slack)
    (h : checkMinimums vars income = .ok ()) :
    ∃ start, startAtMinimums vars income = .ok start ∧
      Sound vars slack (max income (sumOfMinimums vars)) ⟨start.1, start.2⟩ := by
  have hstart : startAtMinimums vars income =
      .ok (vars.map (·.minimum), greatest 0 (income - sumOfMinimums vars)) := by
    rw [startAtMinimums, h]
    rfl
  exact ⟨_, hstart, sound_start hslack hstart⟩

end Funds

/-! ## Results -/

namespace GoalProgram

variable {γ : Type} [Scores γ] {p : GoalProgram Rat γ} {solution : List Rat}

theorem valuesById_nonneg (h : ∀ x ∈ solution, 0 ≤ x) (e : String × Rat)
    (he : e ∈ (p.valuesById solution).entries) : 0 ≤ e.2 :=
  h e.2 (List.of_mem_zip (show (e.1, e.2) ∈ _ from Ledger.mem_of_mem_ofList he)).2

/-- What is moved within the bounds of variables is not negative. -/
theorem clampSolution_nonneg (x : Rat) (hx : x ∈ p.clampSolution solution) : 0 ≤ x := by
  unfold clampSolution at hx
  rw [← List.map_uncurry_zip_eq_zipWith] at hx
  obtain ⟨e, _, rfl⟩ := List.mem_map.mp hx
  exact e.2.minimum_nonneg.trans (e.2.minimum_le_clamp p.income e.1)

end GoalProgram

end GoalBudget
