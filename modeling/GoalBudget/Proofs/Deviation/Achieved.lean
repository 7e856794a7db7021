import GoalBudget.Proofs.Allocation.Within
import GoalBudget.Proofs.Budget.Ids
import GoalBudget.Proofs.Deviation.Wishes

/-!
# Goals that count as achieved

A result lists the goals whose amounts come up to their targets, but for the tolerance
(`mem_achieved_iff`). For the program of a budget this can be read off the amounts by id:
`DeviationResult.Serves` says which savings goals are listed, that amounts are within the bounds of
their items, and that they add up to no more than the money there is.

The way there is by positions. A goal is about the variable at its index, a wish of the budget
stands at the same position, and the ids of the wishes are those of the items
(`AimsAt.exists_goal_iff`, `exists_wish_iff`). Ids are not repeated (`nodup_ids_wishes`), so an
amount looked up by id is that of its own variable.

Both strategies aim at the same, so what is said here is said of both (`AimsAt.serves`).
-/

namespace GoalBudget

/-- What a result makes of the savings goals and the flexible categories of a budget. -/
structure DeviationResult.Serves (b : Budget Rat) (s : Scenario Rat) (money : Rat)
    (r : DeviationResult Rat) : Prop where
  /-- Goals get nothing negative and no more than what is missing. -/
  goals_admit : ∀ key g, b.goals.get? key = some g → g.Admits (r.variableValues.getD key 0)
  /-- Flexible categories get amounts within their bounds. -/
  flexible_admit : ∀ key c, b.flexible.get? key = some c →
    c.Admits (r.variableValues.getD key 0)
  /-- Nothing is negative. -/
  values_nonneg : ∀ x ∈ r.variableValues.values, 0 ≤ x
  /-- All amounts together are no more than the money. -/
  sum_le : r.variableValues.values.sum ≤ money
  /-- A goal is listed as achieved if it is not complete and its amount comes up to its target,
  but for the tolerance. -/
  achieved : ∀ key g, b.goals.get? key = some g → (key ∈ r.achieved ↔
    0 < g.remainingAmount ∧ g.target s.goalFactor - deviationTolerance <
      r.variableValues.getD key 0)

namespace DeviationProgram

variable {p : DeviationProgram Rat} {b : Budget Rat} {s : Scenario Rat} {ws : List Wish}
  {r : DeviationResult Rat} {x : List Rat} {status : Status} {iterations : Nat} {key : String}

/-! ## Any program -/

/-- A result lists the goals with a deviation below the tolerance. -/
theorem mem_achieved_iff (h : p.summarize x status iterations = .ok r) : key ∈ r.achieved ↔
    ∃ g ∈ p.goals, g.id = key ∧ g.deviation (x.getD g.index 0) < deviationTolerance := by
  obtain ⟨misses, hmisses, h⟩ := bind_eq_ok.mp h
  cases h
  have hpairs : misses.map (fun m => (m.id, m.deviation)) =
      p.goals.map fun g => (g.id, g.deviation (x.getD g.index 0)) := by
    refine map_eq_of_mapM_eq_ok hmisses fun g m hm => ?_
    unfold miss at hm
    split at hm
    next a ha =>
      cases hm
      rw [List.getD_eq_getElem?_getD, ha, Option.getD_some]
    next => cases hm
  have hreached : key ∈ (misses.filter Miss.isReached).map (·.id) ↔
      ∃ pair ∈ misses.map (fun m => (m.id, m.deviation)),
        pair.1 = key ∧ pair.2 < deviationTolerance := by
    simp only [List.mem_map, List.mem_filter, Miss.isReached, decide_eq_true_eq,
      exists_exists_and_eq_and, and_assoc]
    exact exists_congr fun m => and_congr_right fun _ => and_comm
  rw [hpairs] at hreached
  refine hreached.trans ?_
  simp only [List.mem_map, exists_exists_and_eq_and]

/-! ## Programs that aim at wishes -/

section
variable (h : p.AimsAt ws)
include h

/-- The goals of the program are the wishes. -/
theorem AimsAt.exists_goal_iff {P : String → Nat → Rat → Side → Prop} :
    (∃ g ∈ p.goals, P g.id g.index g.target g.side) ↔
      ∃ i w, ws[i]? = some w ∧ P w.on.id i w.target .atLeast := by
  have houtlines : (∃ o ∈ p.goals.map outline, P o.1 o.2.1 o.2.2.1 o.2.2.2) ↔
      ∃ o ∈ ws.zipIdx.map Wish.outline, P o.1 o.2.1 o.2.2.1 o.2.2.2 := by rw [h.goals]
  simp only [List.mem_map, exists_exists_and_eq_and] at houtlines
  refine houtlines.trans ?_
  simp only [Prod.exists, List.mk_mem_zipIdx_iff_getElem?]
  exact exists_comm

/-- The variables are those of the wishes, in their order. -/
theorem AimsAt.getElem?_vars {i : Nat} {w : Wish} (hw : ws[i]? = some w) :
    p.vars[i]? = some w.on := by
  rw [h.vars, List.getElem?_map, hw, Option.map_some]

/-- A wish counts as achieved if its amount comes up to its target, but for the tolerance. -/
theorem AimsAt.mem_achieved (hids : (p.vars.map (·.id)).Nodup) (hlen : x.length = p.vars.length)
    (hr : p.summarize x status iterations = .ok r) : key ∈ r.achieved ↔
      ∃ w ∈ ws, w.on.id = key ∧ w.target - deviationTolerance < (p.valuesById x).getD key 0 := by
  have hpositive : (0 : Rat) < deviationTolerance := by norm_num [deviationTolerance]
  have hdeviation (target a : Rat) : Side.deviation .atLeast target a < deviationTolerance ↔
      target - deviationTolerance < a := by
    rw [Side.deviation, greatest_eq_max, max_lt_iff, and_iff_right hpositive, sub_lt_comm]
  have hgoals := h.exists_goal_iff (P := fun id i target side => id = key ∧
    side.deviation target (x.getD i 0) < deviationTolerance)
  refine (mem_achieved_iff hr).trans (hgoals.trans ?_)
  simp only [hdeviation]
  constructor
  · rintro ⟨i, w, hw, rfl, hlt⟩
    refine ⟨w, List.mem_of_getElem? hw, rfl, ?_⟩
    rwa [Ledger.getD_eq (GoalProgram.get?_valuesById hids hlen (h.getElem?_vars hw))]
  · rintro ⟨w, hmem, rfl, hlt⟩
    obtain ⟨i, hw⟩ := List.mem_iff_getElem?.mp hmem
    refine ⟨i, w, hw, rfl, ?_⟩
    rwa [Ledger.getD_eq (GoalProgram.get?_valuesById hids hlen (h.getElem?_vars hw))] at hlt

/-- The amount of a wish is within the bounds of its variable. -/
theorem AimsAt.bounds {money left : Rat} (hids : (p.vars.map (·.id)).Nodup)
    (hsound : Funds.Sound p.vars 0 money ⟨x, left⟩) {w : Wish} (hw : w ∈ ws) :
    w.on.minimum ≤ (p.valuesById x).getD w.on.id 0 ∧
      (0 < w.on.maximum → (p.valuesById x).getD w.on.id 0 ≤ w.on.maximum) := by
  obtain ⟨i, hi⟩ := List.mem_iff_getElem?.mp hw
  have hv := h.getElem?_vars hi
  rw [Ledger.getD_eq (GoalProgram.get?_valuesById hids hsound.length hv)]
  refine ⟨hsound.above i _ hv, fun hmax => ?_⟩
  have hbelow := hsound.below i _ hv (decide_eq_true hmax)
  rwa [add_zero] at hbelow

end

/-! ## Programs of budgets -/

/-- The wishes for savings are those of goals that are not complete. -/
theorem mem_goalWishes {w : Wish} :
    w ∈ b.goals.sorted.entries.flatMap (goalWish s.goalFactor) ↔
      ∃ key g, b.goals.get? key = some g ∧ 0 < g.remainingAmount ∧
        w = ⟨g.asVariable key, g.target s.goalFactor⟩ := by
  simp only [List.mem_flatMap, Prod.exists, Ledger.mem_entries_sorted, ← Ledger.get?_eq_some_iff,
    goalWish]
  refine exists_congr fun key => exists_congr fun g => and_congr_right fun _ => ?_
  split
  next hcomplete => simp [not_lt.mpr hcomplete]
  next hopen => simp [not_le.mp hopen]

/-- The other wishes are those of flexible categories. -/
theorem mem_flexibleWishes {w : Wish} :
    w ∈ b.flexible.sorted.entries.flatMap (flexibleWish s.spendingLevel) ↔
      ∃ key c, b.flexible.get? key = some c ∧
        w = ⟨c.asVariable key, c.targetAt s.spendingLevel⟩ := by
  simp only [List.mem_flatMap, Prod.exists, Ledger.mem_entries_sorted, ← Ledger.get?_eq_some_iff,
    flexibleWish, List.mem_singleton]

/-- Goals are wished for in order, each at most once. -/
theorem ids_goalWishes_sublist (factor : Rat) (entries : List (String × Goal Rat)) :
    ((entries.flatMap (goalWish factor)).map (·.on.id)).Sublist (entries.map Prod.fst) := by
  induction entries with
  | nil => exact .slnil
  | cons e rest ih =>
    rw [List.flatMap_cons, List.map_append, List.map_cons, goalWish]
    split
    next => exact ih.cons _
    next => exact ih.cons_cons _

theorem nodup_ids_wishes (b : Budget Rat) (s : Scenario Rat) :
    ((wishes b s).map (·.on.id)).Nodup := by
  have hflexible : (b.flexible.sorted.entries.flatMap (flexibleWish s.spendingLevel)).map
      (·.on.id) = b.flexible.sorted.keys := by
    rw [List.map_flatMap]
    exact List.flatMap_pure_eq_map _ _
  have hperm : (b.goals.sorted.keys ++ b.flexible.sorted.keys).Perm
      (b.goals.keys ++ b.flexible.keys) :=
    Ledger.keys_sorted_perm.append Ledger.keys_sorted_perm
  rw [wishes, List.map_append, hflexible]
  exact (hperm.nodup_iff.mpr b.nodup_goals_flexible).sublist
    ((ids_goalWishes_sublist _ _).append (List.Sublist.refl _))

/-- What is wished for under the id of a goal is the goal, unless it is complete. -/
theorem exists_wish_iff {P : Wish → Prop} {g : Goal Rat} (hg : b.goals.get? key = some g) :
    (∃ w ∈ wishes b s, w.on.id = key ∧ P w) ↔
      0 < g.remainingAmount ∧ P ⟨g.asVariable key, g.target s.goalFactor⟩ := by
  constructor
  · rintro ⟨w, hw, hid, hP⟩
    rcases List.mem_append.mp hw with hw | hw
    · obtain ⟨key', g', hg', hopen, rfl⟩ := mem_goalWishes.mp hw
      cases hid
      cases hg.symm.trans hg'
      exact ⟨hopen, hP⟩
    · -- no category has the id of a goal
      obtain ⟨key', c, hc, rfl⟩ := mem_flexibleWishes.mp hw
      cases hid
      exact absurd (Ledger.mem_keys_of_get? hg)
        (b.goals_not_mem_flexible _ (Ledger.mem_keys_of_get? hc))
  · rintro ⟨hopen, hP⟩
    exact ⟨_, List.mem_append_left _ (mem_goalWishes.mpr ⟨key, g, hg, hopen, rfl⟩), rfl, hP⟩

/-- Amounts within the bounds of the variables serve the budget that the program is of. -/
theorem AimsAt.serves {money left : Rat} (h : p.AimsAt (wishes b s))
    (hsound : Funds.Sound p.vars 0 money ⟨x, left⟩)
    (hr : p.summarize x status iterations = .ok r) : r.Serves b s money := by
  have hids : (p.vars.map (·.id)).Nodup := by
    rw [h.vars, List.map_map]
    exact nodup_ids_wishes b s
  have hvalues : r.variableValues = p.valuesById x := by
    obtain ⟨r', hr', hvalues⟩ := exists_summarize hsound.length status iterations
    cases hr.symm.trans hr'
    exact hvalues
  constructor
  case goals_admit =>
    intro key g hg
    rw [hvalues]
    by_cases hopen : 0 < g.remainingAmount
    · have hbounds := h.bounds hids hsound (List.mem_append_left _
        (mem_goalWishes.mpr ⟨key, g, hg, hopen, rfl⟩))
      exact ⟨hbounds.1, hbounds.2 hopen⟩
    -- a complete goal has no variable and gets nothing
    · have hnone : (p.valuesById x).get? key = none := by
        rw [Ledger.get?_eq_none_iff, GoalProgram.keys_valuesById hids hsound.length, h.vars,
          List.map_map, List.mem_map]
        rintro ⟨w, hw, hid⟩
        exact hopen ((exists_wish_iff (P := fun _ => True) hg).mp ⟨w, hw, hid, trivial⟩).1
      rw [Ledger.getD, hnone]
      exact ⟨le_refl 0, not_lt.mp g.remainingAmount_nonneg⟩
  case flexible_admit =>
    intro key c hc
    rw [hvalues]
    have hbounds := h.bounds hids hsound (List.mem_append_right _
      (mem_flexibleWishes.mpr ⟨key, c, hc, rfl⟩))
    exact ⟨hbounds.1, hbounds.2⟩
  case values_nonneg =>
    rw [hvalues, GoalProgram.values_valuesById hids hsound.length]
    exact hsound.amounts_nonneg
  case sum_le =>
    have hbalance : x.sum + left = money := hsound.balance
    have hleft : 0 ≤ left := hsound.left_nonneg
    rw [hvalues, GoalProgram.values_valuesById hids hsound.length]
    linarith
  case achieved =>
    intro key g hg
    have hwish := exists_wish_iff (s := s)
      (P := fun w => w.target - deviationTolerance < (p.valuesById x).getD key 0) hg
    rw [hvalues]
    exact (h.mem_achieved hids hsound.length hr).trans hwish

end DeviationProgram

end GoalBudget
