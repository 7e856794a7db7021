import GoalBudget.Proofs.Budget.Changed
import GoalBudget.Proofs.Review.Feasibility
import Mathlib.Algebra.Module.Submodule.Lattice
import Mathlib.Computability.Primrec.List
import Mathlib.Data.List.Permutation

/-!
# Which way a sensitivity points

A rise of interest rates is capped at a hundred percent, and a priority weight is moved within the
range from 1 to 99. Rates and weights beyond these limits are admitted, and for those the cap is a
fall of the rate, and the move goes the wrong way. Within the limits every impact points where its
name says.

The tier of a debt does not notice the cap (`interestTier_min`), so no debt becomes less urgent, and
the order of paying debts changes exactly when some rate reaches one of the limits at which a tier
begins (`interestTier_lt_iff`).

Both directions are stated as equivalences: a rate does not fall exactly if it was not above a
hundred (`le_min_add_iff`), and a weight that is moved up gets more important exactly if it was not
below one (`raisedWeight_le_iff`). So the exceptions are all there are.

Main result: `sensitivity_directions`, and `wrong_directions_beyondLimits` for a budget beyond both
limits.
-/

namespace GoalBudget

/-! ## Rates -/

/-- The rates at which the more urgent tiers begin. -/
def tierLimits : List Rat := [5, 10, 20]

section
variable {rate newRate change : Rat}

/-- A higher rate is at least as urgent. -/
theorem interestTier_antitone (h : rate ≤ newRate) : interestTier newRate ≤ interestTier rate := by
  unfold interestTier
  split_ifs <;> first | omega | linarith

/-- The cap on rates is beyond the limits of all tiers. -/
theorem interestTier_min : interestTier (min rate 100) = interestTier rate := by
  have hlimit (limit : Rat) (h : limit ≤ 100) : limit ≤ min rate 100 ↔ limit ≤ rate :=
    le_min_iff.trans (and_iff_left h)
  simp only [interestTier, hlimit 20 (by norm_num), hlimit 10 (by norm_num),
    hlimit 5 (by norm_num)]

/-- A rate is more urgent than another if it has reached a limit that the other has not. -/
theorem interestTier_lt_iff : interestTier newRate < interestTier rate ↔
    ∃ limit ∈ tierLimits, rate < limit ∧ limit ≤ newRate := by
  constructor
  · intro hlt
    by_contra hnone
    have hreached (limit : Rat) (hmem : limit ∈ tierLimits) (h : limit ≤ newRate) :
        limit ≤ rate := by
      by_contra hbelow
      exact hnone ⟨limit, hmem, not_le.mp hbelow, h⟩
    have hfive := hreached 5 (by simp [tierLimits])
    have hten := hreached 10 (by simp [tierLimits])
    have htwenty := hreached 20 (by simp [tierLimits])
    have hle : interestTier rate ≤ interestTier newRate := by grind [interestTier]
    exact hlt.not_ge hle
  · rintro ⟨limit, hmem, hbelow, hreached⟩
    simp only [tierLimits, List.mem_cons, List.not_mem_nil, or_false] at hmem
    unfold interestTier
    rcases hmem with rfl | rfl | rfl <;> split_ifs <;> first | omega | linarith

theorem le_min_add_iff (hchange : 0 ≤ change) : rate ≤ min (rate + change) 100 ↔ rate ≤ 100 :=
  le_min_iff.trans (and_iff_right (le_add_of_nonneg_right hchange))

end

namespace Debt

variable (d : Debt Rat) (id : String) {change : Rat}

/-- Which way the impact of a rise of rates on a debt points. -/
theorem rateImpact_direction (hchange : 0 ≤ change) :
    (d.interestRate ≤ (d.rateImpact change id).newRate ↔ d.interestRate ≤ 100) ∧
    (0 ≤ (d.rateImpact change id).monthlyInterest ↔
      d.interestRate ≤ 100 ∨ d.currentBalance = 0) ∧
    (d.rateImpact change id).newTier ≤ interestTier d.interestRate := by
  have hnew : (d.rateImpact change id).newRate = min (d.interestRate + change) 100 :=
    least_eq_min _ _
  have hrate : d.interestRate ≤ min (d.interestRate + change) 100 ↔ d.interestRate ≤ 100 :=
    le_min_add_iff hchange
  refine ⟨hnew ▸ hrate, ?_, ?_⟩
  · have hcost : (d.rateImpact change id).monthlyInterest =
        d.currentBalance * ((d.rateImpact change id).newRate - d.interestRate) / 100 / 12 := rfl
    have hbalance : 0 ≤ d.currentBalance := not_lt.mp d.currentBalance_nonneg
    rw [hcost, hnew, ← hrate]
    constructor
    · intro hcost
      -- A rate that falls on a balance that is owed makes the interest fall.
      by_contra hnot
      obtain ⟨hfall, howed⟩ := not_or.mp hnot
      have hpos : 0 < d.currentBalance := lt_of_le_of_ne hbalance (Ne.symm howed)
      have hneg := mul_neg_of_pos_of_neg hpos (sub_neg.mpr (not_le.mp hfall))
      linarith
    · rintro (hrise | hnone)
      · have := mul_nonneg hbalance (sub_nonneg.mpr hrise)
        positivity
      · simp [hnone]
  -- The tiers do not tell 100 per cent from anything above.
  · have htier : (d.rateImpact change id).newTier = interestTier (d.interestRate + change) :=
      (congrArg interestTier hnew).trans interestTier_min
    rw [htier]
    exact interestTier_antitone (le_add_of_nonneg_right hchange)

end Debt

namespace Budget

variable (b : Budget Rat) {change : Rat}

theorem mem_debts_rateImpact {i : DebtImpact Rat} :
    i ∈ (b.rateImpact change).debts ↔
      ∃ e ∈ b.debts.entries, e.2.rateImpact change e.1 = i := by
  unfold rateImpact
  rw [List.mem_map]
  simp only [Ledger.mem_entries_sorted]

/-- A rise of rates costs nothing negative if no rate is beyond the cap. -/
theorem rateImpact_monthlyInterest_nonneg (hchange : 0 ≤ change)
    (hrates : ∀ d ∈ b.debts.values, d.interestRate ≤ 100) :
    0 ≤ (b.rateImpact change).monthlyInterest := by
  have htotal : (b.rateImpact change).monthlyInterest =
      ((b.rateImpact change).debts.map (·.monthlyInterest)).sum := total_eq_sum _
  rw [htotal]
  apply List.sum_nonneg
  intro cost hcost
  obtain ⟨i, hi, rfl⟩ := List.mem_map.mp hcost
  obtain ⟨e, he, rfl⟩ := b.mem_debts_rateImpact.mp hi
  have hrate := hrates e.2 (List.mem_map_of_mem he)
  exact (e.2.rateImpact_direction e.1 hchange).2.1.mpr (.inl hrate)

/-- The order of paying debts changes if some debt reaches a limit. -/
theorem changesOrder_iff : (b.rateImpact change).changesOrder = true ↔
    ∃ d ∈ b.debts.values, ∃ limit ∈ tierLimits,
      d.interestRate < limit ∧ limit ≤ d.interestRate + change := by
  have htier (d : Debt Rat) (id : String) : (d.rateImpact change id).newTier <
      (d.rateImpact change id).oldTier ↔ ∃ limit ∈ tierLimits,
        d.interestRate < limit ∧ limit ≤ d.interestRate + change := by
    have hnew : (d.rateImpact change id).newTier = interestTier (d.interestRate + change) :=
      (congrArg interestTier (least_eq_min _ _)).trans interestTier_min
    rw [hnew]
    exact interestTier_lt_iff
  rw [RateImpact.changesOrder, List.any_eq_true]
  constructor
  · rintro ⟨i, hi, hmoves⟩
    obtain ⟨e, he, rfl⟩ := b.mem_debts_rateImpact.mp hi
    exact ⟨e.2, List.mem_map_of_mem he, (htier e.2 e.1).mp (of_decide_eq_true hmoves)⟩
  · rintro ⟨d, hd, hreaches⟩
    obtain ⟨e, he, rfl⟩ := List.mem_map.mp hd
    exact ⟨_, b.mem_debts_rateImpact.mpr ⟨e, he, rfl⟩,
      decide_eq_true ((htier e.2 e.1).mpr hreaches)⟩

end Budget

/-! ## Weights -/

/-- A weight from one on does not get less important by a move up. -/
theorem raisedWeight_le_iff {weight : Int} : raisedWeight weight ≤ weight ↔ 1 ≤ weight := by
  unfold raisedWeight
  omega

theorem le_loweredWeight_iff {weight : Int} : weight ≤ loweredWeight weight ↔ weight ≤ 99 := by
  unfold loweredWeight
  omega

namespace Allocator

variable {a : Allocator Rat} {b : Budget Rat} {s : Scenario Rat} {before : Allocation Rat}

/-- What the impacts of other weights are: two more allocations for each goal but the emergency
fund, in which that goal alone has another weight. -/
theorem weightImpacts_eq_ok {impacts : List (WeightImpact Rat)}
    (h : a.weightImpacts b s before = .ok impacts) :
    impacts.map (·.id) = b.weightedGoals.map Prod.fst ∧
    ∀ i ∈ impacts, ∃ g, b.goals.get? i.id = some g ∧ g.isEmergency = false ∧
      a.goalAmount (b.reweigh i.id (raisedWeight g.priorityWeight) (raisedWeight_nonneg _)) s i.id =
        .ok i.ifHigher ∧
      a.goalAmount (b.reweigh i.id (loweredWeight g.priorityWeight)
        (loweredWeight_nonneg g.priorityWeight_nonneg)) s i.id = .ok i.ifLower := by
  have hone (e : String × Goal Rat) (i : WeightImpact Rat)
      (hi : a.weightImpact b s before e.1 e.2 = .ok i) : i.id = e.1 ∧
        a.goalAmount (b.raiseGoal e.1) s e.1 = .ok i.ifHigher ∧
        a.goalAmount (b.lowerGoal e.1) s e.1 = .ok i.ifLower := by
    obtain ⟨higher, hhigher, hi⟩ := bind_eq_ok.mp hi
    obtain ⟨lower, hlower, hi⟩ := bind_eq_ok.mp hi
    rw [← pure_eq_ok.mp hi]
    exact ⟨rfl, hhigher, hlower⟩
  refine ⟨map_eq_of_mapM_eq_ok h fun e i hi => (hone e i hi).1, fun i hi => ?_⟩
  obtain ⟨e, he, hei⟩ := exists_of_mem_mapM h hi
  obtain ⟨hid, hhigher, hlower⟩ := hone e i hei
  obtain ⟨hsorted, hweighted⟩ := List.mem_filter.mp he
  have hg : b.goals.get? e.1 = some e.2 := Ledger.get?_of_mem (Ledger.mem_entries_sorted.mp hsorted)
  rw [b.raiseGoal_eq hg] at hhigher
  rw [b.lowerGoal_eq hg] at hlower
  rw [hid]
  exact ⟨e.2, hg, by simpa using hweighted, hhigher, hlower⟩

/-- Which way a sensitivity points, for rates and weights within the limits and beyond them. A
debt is listed with its own rate; what it costs more is not negative and its rate does not fall if
that rate is within the cap. No debt becomes less urgent, whatever its rate, and the order of
paying debts changes if some debt becomes more urgent, which is when it reaches a limit. A goal is
allocated anew with two other weights, which are at most and at least its own if that is within
the range of weights. -/
theorem sensitivity_directions (a : Allocator Rat) (b : Budget Rat) (s : Scenario Rat)
    {change : Rat} (hchange : 0 ≤ change) :
    (b.rateImpact change).debts.map (·.id) = b.debts.sorted.keys ∧
    (∀ i ∈ (b.rateImpact change).debts, ∃ d, b.debts.get? i.id = some d ∧
      i.oldRate = d.interestRate ∧ i.newRate = min (d.interestRate + change) 100 ∧
      (i.oldRate ≤ i.newRate ↔ d.interestRate ≤ 100) ∧
      (0 ≤ i.monthlyInterest ↔ d.interestRate ≤ 100 ∨ d.currentBalance = 0) ∧
      i.newTier = interestTier i.newRate ∧ i.newTier ≤ interestTier d.interestRate) ∧
    ((∀ d ∈ b.debts.values, d.interestRate ≤ 100) → 0 ≤ (b.rateImpact change).monthlyInterest) ∧
    ((b.rateImpact change).changesOrder = true ↔
      ∃ i ∈ (b.rateImpact change).debts, i.newTier < interestTier i.oldRate) ∧
    ((b.rateImpact change).changesOrder = true ↔ ∃ d ∈ b.debts.values, ∃ limit ∈ tierLimits,
      d.interestRate < limit ∧ limit ≤ d.interestRate + change) ∧
    ∀ before impacts, a.weightImpacts b s before = .ok impacts →
      impacts.map (·.id) = b.weightedGoals.map Prod.fst ∧
      ∀ i ∈ impacts, ∃ g, b.goals.get? i.id = some g ∧ g.isEmergency = false ∧
        a.goalAmount (b.reweigh i.id (raisedWeight g.priorityWeight) (raisedWeight_nonneg _)) s
          i.id = .ok i.ifHigher ∧
        a.goalAmount (b.reweigh i.id (loweredWeight g.priorityWeight)
          (loweredWeight_nonneg g.priorityWeight_nonneg)) s i.id = .ok i.ifLower ∧
        (raisedWeight g.priorityWeight ≤ g.priorityWeight ↔ 1 ≤ g.priorityWeight) ∧
        (g.priorityWeight ≤ loweredWeight g.priorityWeight ↔ g.priorityWeight ≤ 99) := by
  refine ⟨?_, ?_, b.rateImpact_monthlyInterest_nonneg hchange, ?_, b.changesOrder_iff, ?_⟩
  · exact List.map_map
  · intro i hi
    obtain ⟨e, he, rfl⟩ := b.mem_debts_rateImpact.mp hi
    obtain ⟨hrate, hcost, htier⟩ := e.2.rateImpact_direction e.1 hchange
    exact ⟨e.2, Ledger.get?_of_mem he, rfl, least_eq_min _ _, hrate, hcost, rfl, htier⟩
  · rw [RateImpact.changesOrder, List.any_eq_true]
    refine exists_congr fun i => and_congr_right fun hi => ?_
    obtain ⟨e, he, rfl⟩ := b.mem_debts_rateImpact.mp hi
    exact decide_eq_true_iff
  · intro before impacts himpacts
    obtain ⟨hids, hall⟩ := weightImpacts_eq_ok himpacts
    refine ⟨hids, fun i hi => ?_⟩
    obtain ⟨g, hg, hweighted, hhigher, hlower⟩ := hall i hi
    exact ⟨g, hg, hweighted, hhigher, hlower, raisedWeight_le_iff, le_loweredWeight_iff⟩

/-- The household is within all limits. -/
theorem sensitivity_directions_household :
    (∃ i ∈ (household.rateImpact 2).debts, i.oldRate = 24 ∧ 24 ≤ i.newRate ∧
      0 ≤ i.monthlyInterest ∧ i.newTier ≤ 1) ∧
    0 ≤ (household.rateImpact 2).monthlyInterest ∧
    (household.rateImpact 2).changesOrder = false ∧
    ∃ before impacts, (exactly .preemptive).weightImpacts household halfway before = .ok impacts ∧
      impacts.map (·.id) = ["trip"] ∧ raisedWeight 5 ≤ 5 ∧ 5 ≤ loweredWeight 5 := by
  obtain ⟨hids, hdebts, htotal, _, hlimits, hweights⟩ :=
    sensitivity_directions (exactly .preemptive) household halfway (show (0 : Rat) ≤ 2 by norm_num)
  refine ⟨?_, htotal (by decide +kernel), ?_, ?_⟩
  · have hid : "card" ∈ (household.rateImpact 2).debts.map (·.id) := by
      rw [hids]
      decide +kernel
    obtain ⟨i, hi, hcard⟩ := List.mem_map.mp hid
    obtain ⟨d, hd, hold, _, hrate, hcost, _, htier⟩ := hdebts i hi
    have hget : household.debts.get? i.id = some ⟨"card", "card", 20, 500, 24, 0, 1, by decide,
        by decide, by decide, by decide⟩ := by
      rw [hcard]
      rfl
    have hrates : d.interestRate = 24 := by
      rw [Option.some.inj (hd.symm.trans hget)]
    rw [hrates] at hold hrate hcost htier
    have hrise := hrate.mpr (by norm_num)
    rw [hold] at hrise
    exact ⟨i, hi, hold, hrise, hcost.mpr (.inl (by norm_num)), htier⟩
  · rw [Bool.eq_false_iff, ne_eq, hlimits]
    decide +kernel
  · obtain ⟨hunit, hbackends⟩ := exactly_accepts .preemptive
    obtain ⟨before, hbefore⟩ :=
      exists_of_isOk (x := (exactly .preemptive).solve household halfway) (by cbv)
    obtain ⟨impacts, himpacts⟩ :=
      exists_weightImpacts (by decide) hunit (fun _ => hbackends) before ⟨before, hbefore⟩
    obtain ⟨hgoals, hall⟩ := hweights before impacts himpacts
    have hids : impacts.map (·.id) = ["trip"] := by
      rw [hgoals]
      decide +kernel
    have htrip : "trip" ∈ impacts.map (·.id) := by simp [hids]
    obtain ⟨i, hi, hid⟩ := List.mem_map.mp htrip
    obtain ⟨g, hg, _, _, _, hraised, hlowered⟩ := hall i hi
    have hget : (household.goals.get? i.id).map (·.priorityWeight) = some 5 := by
      rw [hid]
      rfl
    rw [hg, Option.map_some, Option.some_inj] at hget
    rw [hget] at hraised hlowered
    exact ⟨before, impacts, himpacts, hids, hraised.mpr (by decide), hlowered.mpr (by decide)⟩

/-- A goal that asks for a hundred and needs no more. -/
def demanding (id : String) (weight : Int) (h : 0 ≤ weight) : Goal Rat :=
  ⟨id, id, 100, 100, "travel", .medium, weight, literal_not_neg, literal_not_neg, h⟩

/-- A budget with a rate and weights beyond the limits. -/
def beyondLimits : Budget Rat where
  income := 100
  mandatory := ∅
  flexible := ∅
  debts := ⟨[("card", ⟨"card", "card", 0, 1200, 150, 0, 1, literal_not_neg, literal_not_neg,
    literal_not_neg, literal_not_neg⟩)], by decide⟩
  goals := ⟨[("alpha", demanding "alpha" 1 literal_nonneg),
    ("beta", demanding "beta" 0 literal_nonneg), ("gamma", demanding "gamma" 120 literal_nonneg)],
    by decide⟩
  income_nonneg := literal_not_neg
  ids_distinct := by decide

/-- The debt gets cheaper by a rise of rates, the goal that is to be raised gets nothing any more,
and the weight of the goal that is to be lowered becomes more important. -/
theorem wrong_directions_beyondLimits :
    (∃ i ∈ (beyondLimits.rateImpact 2).debts, i.newRate < i.oldRate ∧ i.monthlyInterest < 0) ∧
    (beyondLimits.rateImpact 2).monthlyInterest < 0 ∧
    (∃ g, beyondLimits.goals.get? "beta" = some g ∧
      g.priorityWeight < raisedWeight g.priorityWeight) ∧
    (∃ g, beyondLimits.goals.get? "gamma" = some g ∧
      loweredWeight g.priorityWeight < g.priorityWeight) ∧
    ∃ report, (exactly .preemptive).sensitivity beyondLimits halfway [] [2] = .ok report ∧
      report.rates.map (·.monthlyInterest) = [-50] ∧
      report.weights.map (fun i => (i.id, i.current, i.ifHigher)) =
        [("alpha", 0, 0), ("beta", 100, 0), ("gamma", 0, 0)] := by
  refine ⟨?_, by decide +kernel, ⟨_, rfl, by decide⟩, ⟨_, rfl, by decide⟩, ?_⟩
  · decide +kernel
  · obtain ⟨report, hreport, hreads⟩ := exists_of_toOption_map
      (x := (exactly .preemptive).sensitivity beyondLimits halfway [] [2])
      (f := fun report => (report.rates.map (·.monthlyInterest),
        report.weights.map fun i => (i.id, i.current, i.ifHigher)))
      (y := ([-50], [("alpha", 0, 0), ("beta", 100, 0), ("gamma", 0, 0)])) (by cbv)
    exact ⟨report, hreport, congrArg Prod.fst hreads, congrArg Prod.snd hreads⟩

end Allocator

end GoalBudget
