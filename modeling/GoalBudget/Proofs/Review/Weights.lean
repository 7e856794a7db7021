import GoalBudget.Proofs.Allocation.Order
import GoalBudget.Proofs.Allocation.Unrounded
import GoalBudget.Proofs.Review.Accounting
import GoalBudget.Proofs.Review.Direction
import Mathlib.Data.Int.ConditionallyCompleteOrder

/-!
# A higher priority costs a goal nothing

With strict order and no rounding, a goal gets at least as much with a smaller priority weight,
which makes it more important. A weight decides about the order of service and about nothing else:
what a budget asks for and what the passes do is the same (`wishes_reweigh`, `normalize_reweigh`).
There are two cases. Where strict order has something left, every goal has got what it needs,
whatever the order, and the passes start from the same amounts (`TiersFor.pools_eq_of_left`). Where
nothing is left the passes have nothing to do, and what counts is what the goal has got in its turn,
which is no less if it comes earlier (`TiersFor.getD_values_le`).

The two cases are the same for both weights, since how much is left does not depend on the order.
Weights beyond the range from 1 to 99 are covered as well: what is compared is any two weights.

Main result: `higher_priority_costs_nothing`.
-/

namespace GoalBudget

/-! ## What a weight does not matter to -/

section
variable {b : Budget Rat} {s : Scenario Rat} {id key : String} {weight : Int} {h : 0 ≤ weight}

/-- What is read of goals other than their weights. -/
theorem Budget.map_goals_reweigh {τ : Type} {f : String → Goal Rat → τ}
    (hf : ∀ key g, f key (g.withWeight weight h) = f key g) :
    (b.reweigh id weight h).goals.map f = b.goals.map f := by
  show (b.goals.modify id fun g => g.withWeight weight h).map f = b.goals.map f
  rw [Ledger.modify, Ledger.map_map]
  refine Ledger.map_congr fun key g _ => ?_
  split
  next => exact hf key g
  next => rfl

/-- What does not look at the weight is the same for all goals. -/
theorem Budget.map_sorted_reweigh {τ : Type} {f : String → Goal Rat → τ}
    (hf : ∀ key g, f key (g.withWeight weight h) = f key g) :
    (b.reweigh id weight h).goals.sorted.map f = b.goals.sorted.map f := by
  rw [← Ledger.sorted_map, map_goals_reweigh hf, Ledger.sorted_map]

/-- A budget wishes for the same with another weight. -/
theorem DeviationProgram.wishes_reweigh : wishes (b.reweigh id weight h) s = wishes b s := by
  have hlisted (c : Budget Rat) : c.goals.sorted.entries.flatMap (goalWish s.goalFactor) =
      (c.goals.sorted.map fun key g => goalWish s.goalFactor (key, g)).values.flatten := by
    rw [Ledger.values, Ledger.map, List.map_map]
    rfl
  rw [wishes, wishes, hlisted, hlisted, Budget.map_sorted_reweigh fun _ _ => rfl]
  rfl

theorem DeviationProgram.pools_reweigh (p : DeviationProgram Rat) :
    p.pools (b.reweigh id weight h) = p.pools b :=
  congrArg (Pools.mk _) (Budget.map_sorted_reweigh fun _ _ => rfl)

theorem normalize_reweigh (committed : Rat) (passes : Nat) (p : Pools Rat) :
    normalize (b.reweigh id weight h) s committed passes p = normalize b s committed passes p := by
  have hmissing (key : String) (x : Rat) :
      (((b.reweigh id weight h).goals.get? key).elim 0 fun g => g.remainingAmount - x) =
        (b.goals.get? key).elim 0 fun g => g.remainingAmount - x := by
    rw [Budget.get?_reweigh, Option.elim_map]
    split <;> rfl
  refine normalize_congr (b := b.reweigh id weight h) (c := b) rfl (fun amount p => ?_)
    (fun amount p => ?_) passes p
  · have hroom : goalRoom (b.reweigh id weight h) p.goals = goalRoom b p.goals := by
      simp only [goalRoom, hmissing]
    rw [absorbSurplus, absorbSurplus, hroom]
    rfl
  · rw [recoverDeficit, recoverDeficit, Budget.map_goals_reweigh fun _ _ => rfl]
    rfl

end

/-! ## What comes earlier -/

namespace DeviationProgram

variable {b : Budget Rat} {s : Scenario Rat} {p q : DeviationProgram Rat} {ws : List Wish}
  {key : String} {v w : Int} {hv : 0 ≤ v} {hw : 0 ≤ w}

/-- The rank of the item of the wish at a position. -/
def rankAt (b : Budget Rat) (ws : List Wish) (i : Nat) : Int ×ₗ Rat :=
  (ws[i]?).elim (toLex (7, -1)) fun wish => b.rankOf wish.on.id

theorem Ranked.rank_eq (h : Ranked b p.goals) (haims : p.AimsAt ws) (g : DeviationGoal Rat)
    (hg : g ∈ p.goals) : g.rank = rankAt b ws g.index := by
  obtain ⟨wish, hwish, hid, _⟩ := haims.exists_wish hg
  rw [h g hg, hid, rankAt, hwish]
  rfl

/-- Only the item that is weighed anew changes its rank. -/
theorem rankAt_reweigh {i j : Nat} {wish : Wish} (hids : (ws.map (·.on.id)).Nodup)
    (hi : ws[i]? = some wish) (hj : j ≠ i) :
    rankAt (b.reweigh wish.on.id v hv) ws j = rankAt b ws j := by
  rw [rankAt, rankAt]
  cases hother : ws[j]? with
  | none => rfl
  | some other =>
    refine Budget.rankOf_reweigh fun hsame => hj ?_
    have hlength : j < (ws.map (·.on.id)).length := by
      rw [List.length_map]
      exact (List.getElem?_eq_some_iff.mp hother).1
    refine (List.getElem?_inj hlength hids).mp ?_
    rw [List.getElem?_map, List.getElem?_map, hother, hi]
    exact congrArg some hsame

/-- The goal itself has the rank of its new weight. -/
theorem rankAt_reweigh_self {i : Nat} {wish : Wish} {g : Goal Rat} (hi : ws[i]? = some wish)
    (hg : b.goals.get? wish.on.id = some g) :
    rankAt (b.reweigh wish.on.id v hv) ws i = (g.withWeight v hv).rank := by
  rw [rankAt, hi, Option.elim_some, Budget.rankOf, Budget.get?_reweigh, hg, Option.map_some,
    if_pos rfl, Option.elim_some]

section
variable (h : TiersFor (b.reweigh key v hv) s p) (h' : TiersFor (b.reweigh key w hw) s q)
include h h'

theorem TiersFor.aims_of_reweigh : p.AimsAt (wishes b s) ∧ q.AimsAt (wishes b s) ∧
    p.income = q.income :=
  ⟨wishes_reweigh (b := b) ▸ h.aims, wishes_reweigh (b := b) ▸ h'.aims,
    h.income.trans h'.income.symm⟩

/-- With a smaller weight a goal gets at least as much from strict order. -/
theorem TiersFor.getD_values_le {g : Goal Rat} (hg : b.goals.get? key = some g)
    (hweighted : g.isEmergency = false) (hvw : v < w) :
    (q.valuesById q.served.amounts).getD key 0 ≤ (p.valuesById p.served.amounts).getD key 0 := by
  obtain ⟨haims, haims', hincome⟩ := h.aims_of_reweigh h'
  by_cases hwished : ∃ wish ∈ wishes b s, wish.on.id = key
  · obtain ⟨wish, hmem, rfl⟩ := hwished
    obtain ⟨i, hi⟩ := List.mem_iff_getElem?.mp hmem
    have hids := nodup_ids_wishes b s
    have hearlier : rankAt (b.reweigh wish.on.id v hv) (wishes b s) i <
        rankAt (b.reweigh wish.on.id w hw) (wishes b s) i := by
      rw [rankAt_reweigh_self hi hg, rankAt_reweigh_self hi hg]
      exact Goal.rank_lt hweighted hv hw hvw
    have hothers (j : Nat) (hj : j ≠ i) : rankAt (b.reweigh wish.on.id v hv) (wishes b s) j =
        rankAt (b.reweigh wish.on.id w hw) (wishes b s) j :=
      (rankAt_reweigh hids hi hj).trans (rankAt_reweigh hids hi hj).symm
    rw [h.getD_values (wishes_reweigh (b := b) ▸ hi), h'.getD_values (wishes_reweigh (b := b) ▸ hi)]
    exact haims.amount_le_of_earlier haims' hincome (h.ranked.rank_eq haims)
      (h'.ranked.rank_eq haims') hothers hearlier (List.getElem?_eq_some_iff.mp hi).1
  -- a complete goal gets nothing either way
  · have hnothing {r : DeviationProgram Rat} {c : Budget Rat} (hr : TiersFor c s r)
        (hraims : r.AimsAt (wishes b s)) : (r.valuesById r.served.amounts).getD key 0 = 0 := by
      have hnone : (r.valuesById r.served.amounts).get? key = none := by
        rw [Ledger.get?_eq_none_iff, GoalProgram.keys_valuesById hr.nodup_ids hr.length_served,
          hraims.vars, List.map_map, List.mem_map]
        exact hwished
      rw [Ledger.getD, hnone, Option.getD_none]
    rw [hnothing h haims, hnothing h' haims']

/-- Where strict order has something left, all get the same whatever the weight. -/
theorem TiersFor.pools_eq_of_left (hleft : 0 < p.served.left) : p.pools b = q.pools b := by
  obtain ⟨haims, haims', hincome⟩ := h.aims_of_reweigh h'
  rw [pools, pools, haims.amounts_eq_of_left haims' hincome hleft, GoalProgram.valuesById,
    GoalProgram.valuesById, haims.vars, haims'.vars]

end

end DeviationProgram

namespace Allocator

variable {a : Allocator Rat} {b : Budget Rat} {s : Scenario Rat} {r q : Allocation Rat}
  {key : String} {v w : Int} {hv : 0 ≤ v} {hw : 0 ≤ w}

/-- What goals get in the end is what the passes make of what strict order gives. -/
theorem exists_tiers_goals (hstrategy : a.strategy = .preemptive)
    (hunit : ∀ u ∈ a.roundingUnit, u = 0) (h : a.solve (b.reweigh key v hv) s = .ok r) :
    ∃ p, DeviationProgram.TiersFor (b.reweigh key v hv) s p ∧
      r.goals = (normalize (b.reweigh key v hv) s (b.reweigh key v hv).committed maxPasses
        (p.pools (b.reweigh key v hv))).goals := by
  obtain ⟨proposal, start, hrun⟩ := solve_eq_ok h
  obtain ⟨p, htiers, rfl, hsettled⟩ := hrun.exists_tiers hstrategy hunit
  exact ⟨p, htiers, hsettled ▸ hrun.goals_eq⟩

/-- With a smaller weight a goal gets at least as much in the end. -/
theorem goals_getD_le (hstrategy : a.strategy = .preemptive)
    (hunit : ∀ u ∈ a.roundingUnit, u = 0) {g : Goal Rat} (hg : b.goals.get? key = some g)
    (hweighted : g.isEmergency = false) (hvw : v < w)
    (h : a.solve (b.reweigh key v hv) s = .ok r) (h' : a.solve (b.reweigh key w hw) s = .ok q) :
    q.goals.getD key 0 ≤ r.goals.getD key 0 := by
  obtain ⟨p, htiers, hgoals⟩ := exists_tiers_goals hstrategy hunit h
  obtain ⟨p', htiers', hgoals'⟩ := exists_tiers_goals hstrategy hunit h'
  obtain ⟨haims, haims', hincome⟩ := htiers.aims_of_reweigh htiers'
  by_cases hleft : 0 < p.served.left
  · have hsame : q.goals = r.goals := by
      rw [hgoals, hgoals', p.pools_reweigh, p'.pools_reweigh, normalize_reweigh, normalize_reweigh,
        htiers.pools_eq_of_left htiers' hleft]
      rfl
    rw [hsame]
  · have hspent : p.served.left ≤ 0 := not_lt.mp hleft
    have hspent' : p'.served.left ≤ 0 := haims.left_eq haims' hincome ▸ hspent
    have hgiven (p : DeviationProgram Rat) :
        (p.pools b).goals.getD key 0 = (p.valuesById p.served.amounts).getD key 0 := by
      refine Ledger.getD_eq ?_
      rw [DeviationProgram.pools, Ledger.get?_map, Ledger.get?_sorted, hg, Option.map_some]
    rw [hgoals, hgoals', htiers.normalize_pools_of_spent hspent,
      htiers'.normalize_pools_of_spent hspent', p.pools_reweigh, p'.pools_reweigh, hgiven, hgiven]
    exact htiers.getD_values_le htiers' hg hweighted hvw

/-- Two budgets that differ in the goals only have allocations at the same time. -/
theorem exists_solve_of_unrounded (hstrategy : a.strategy = .preemptive)
    (hunit : ∀ u ∈ a.roundingUnit, u = 0) (h : a.solve b s = .ok r) (id : String)
    (f : Goal Rat → Goal Rat) : ∃ q, a.solve (b.modifyGoal id f) s = .ok q := by
  rw [solve_of_unrounded hunit] at h ⊢
  refine exists_solve_modifyGoal ?_ (by rintro u ⟨⟩) ?_ id f ⟨r, h⟩
  · simp [hstrategy]
  · simp [hstrategy]

/-- With strict order and no rounding, a goal that is no emergency fund gets at least as much with
a smaller priority weight as with a larger one. So in a sensitivity no goal whose weight is in the
range of weights would get less if it were raised than if it were lowered. -/
theorem higher_priority_costs_nothing (hstrategy : a.strategy = .preemptive)
    (hunit : ∀ u ∈ a.roundingUnit, u = 0) (h : a.solve b s = .ok r) :
    (∀ key g v w (hv : 0 ≤ v) (hvw : v ≤ w), b.goals.get? key = some g →
      g.isEmergency = false → ∃ x y, a.goalAmount (b.reweigh key v hv) s key = .ok x ∧
        a.goalAmount (b.reweigh key w (hv.trans hvw)) s key = .ok y ∧ y ≤ x) ∧
    ∃ impacts, a.weightImpacts b s r = .ok impacts ∧
      impacts.map (·.id) = b.weightedGoals.map Prod.fst ∧
      (∀ i ∈ impacts, ∃ g, b.goals.get? i.id = some g ∧ g.isEmergency = false ∧
        (1 ≤ g.priorityWeight → g.priorityWeight ≤ 99 → i.ifLower ≤ i.ifHigher)) ∧
      ∀ changes rates report, a.sensitivity b s changes rates = .ok report →
        report.weights = impacts := by
  have hweights (key : String) (g : Goal Rat) (v w : Int) (hv : 0 ≤ v) (hvw : v ≤ w)
      (hg : b.goals.get? key = some g) (hweighted : g.isEmergency = false) :
      ∃ x y, a.goalAmount (b.reweigh key v hv) s key = .ok x ∧
        a.goalAmount (b.reweigh key w (hv.trans hvw)) s key = .ok y ∧ y ≤ x := by
    have hsolve (u : Int) (hu : 0 ≤ u) : ∃ r, a.solve (b.reweigh key u hu) s = .ok r :=
      exists_solve_of_unrounded hstrategy hunit h key _
    obtain ⟨r, hr⟩ := hsolve v hv
    obtain ⟨q, hq⟩ := hsolve w (hv.trans hvw)
    refine ⟨_, _, bind_of_eq_ok hr, bind_of_eq_ok hq, ?_⟩
    rcases eq_or_lt_of_le hvw with rfl | hlt
    · cases hr.symm.trans hq
      exact le_rfl
    · exact goals_getD_le hstrategy hunit hg hweighted hlt hr hq
  refine ⟨hweights, ?_⟩
  obtain ⟨impacts, himpacts⟩ :=
    exists_weightImpacts_of_solve r (exists_solve_of_unrounded hstrategy hunit h)
  obtain ⟨hids, hall⟩ := weightImpacts_eq_ok himpacts
  refine ⟨impacts, himpacts, hids, fun i hi => ?_, fun changes rates report hreport => ?_⟩
  · obtain ⟨g, hg, hweighted, hhigher, hlower⟩ := hall i hi
    refine ⟨g, hg, hweighted, fun hlow hhigh => ?_⟩
    -- From 1 to 99 the raised weight is the more important one.
    have hrange : raisedWeight g.priorityWeight ≤ loweredWeight g.priorityWeight :=
      (raisedWeight_le_iff.mpr hlow).trans (le_loweredWeight_iff.mpr hhigh)
    obtain ⟨x, y, hx, hy, hle⟩ :=
      hweights i.id g _ _ (raisedWeight_nonneg _) hrange hg hweighted
    cases hhigher.symm.trans hx
    cases hlower.symm.trans hy
    exact hle
  · obtain ⟨before, hbefore, _, hreported⟩ := sensitivity_eq_ok hreport
    cases h.symm.trans hbefore
    exact Except.ok.inj (hreported.symm.trans himpacts)

/-- A budget that affords no more than one and a half of its two goals. -/
def contested : Budget Rat where
  income := 150
  mandatory := ∅
  flexible := ∅
  debts := ∅
  goals := ⟨[("trip", demanding "trip" 5 literal_nonneg),
    ("bike", demanding "bike" 8 literal_nonneg)], by decide⟩
  income_nonneg := literal_not_neg
  ids_distinct := by decide

/-- The trip gets no less with weight five than with weight fifty. -/
theorem higher_priority_costs_nothing_contested :
    ∃ r, (exactly .preemptive).solve contested halfway = .ok r ∧
      (∃ x y, (exactly .preemptive).goalAmount (contested.reweigh "trip" 5 (by decide)) halfway
          "trip" = .ok x ∧
        (exactly .preemptive).goalAmount (contested.reweigh "trip" 50 (by decide)) halfway
          "trip" = .ok y ∧ y ≤ x) ∧
      ∃ impacts, (exactly .preemptive).weightImpacts contested halfway r = .ok impacts ∧
        impacts.map (·.id) = ["bike", "trip"] ∧ ∀ i ∈ impacts, i.ifLower ≤ i.ifHigher := by
  obtain ⟨r, hr⟩ := exists_of_isOk
    (x := (exactly .preemptive).solve contested halfway) (by cbv)
  obtain ⟨hweights, impacts, himpacts, hids, hall, _⟩ :=
    higher_priority_costs_nothing rfl (by rintro u ⟨⟩) hr
  refine ⟨r, hr, ?_, impacts, himpacts, ?_, fun i hi => ?_⟩
  · exact hweights "trip" (demanding "trip" 5 (by decide)) 5 50 (by decide) (by decide) rfl
      (by decide)
  · rw [hids]
    cbv
  · obtain ⟨g, hg, _, hdirection⟩ := hall i hi
    have hrange : ∀ g ∈ contested.goals.values, 1 ≤ g.priorityWeight ∧ g.priorityWeight ≤ 99 := by
      decide
    obtain ⟨hlow, hhigh⟩ := hrange g (Ledger.mem_values_of_get? hg)
    exact hdirection hlow hhigh

/-- Behind the bike, the trip gets what is left. -/
example :
    ((exactly .preemptive).goalAmount (contested.reweigh "trip" 5 (by decide)) halfway
      "trip").toOption = some 100 ∧
    ((exactly .preemptive).goalAmount (contested.reweigh "trip" 50 (by decide)) halfway
      "trip").toOption = some 50 := by
  constructor <;> cbv

end Allocator

end GoalBudget
