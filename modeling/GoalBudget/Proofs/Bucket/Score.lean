import GoalBudget.Proofs.Bucket.Conservation
import GoalBudget.Proofs.Bucket.Exhausted
import GoalBudget.Proofs.Ladder.Score

/-!
# The score of the hybrid strategy

The levels of every item pay more and more, and before its bucket is spent an item has collected
nothing (`aspires_of_mem_buckets`). Spending funds each item once, with one of its levels or a part
of the lowest, which pays nothing; so no item collects more than its highest level pays
(`rewarded_spend`). What is paid in the first phase counts the same on both sides.

Rewards are sums over all items, and the bound is taken item by item (`totalReward_between`). Where
there is nothing to be had the score is a hundred.

Main result: `score_between`.
-/

namespace GoalBudget

namespace BucketItem

/-- An item that has attained and collected nothing, and whose levels pay more and more. -/
structure Aspires (item : BucketItem Rat) : Prop extends item.IsUntouched where
  reward_eq : item.reward = 0
  climbing : Climbing item.levels

/-- An item that has collected nothing negative, and no more than its highest level pays. -/
structure Rewarded (item : BucketItem Rat) : Prop where
  nonneg : 0 ≤ item.reward
  le_top : item.reward ≤ item.topReward

variable {item : BucketItem Rat}

/-- No level pays more than the highest. -/
theorem le_topReward_of_climbing (h : Climbing item.levels) {l : Level Rat}
    (hl : l ∈ item.levels) : l.reward ≤ item.topReward := by
  obtain ⟨top, htop, hle⟩ := le_last_reward h.rising hl
  rw [topReward, htop]
  exact hle

/-- An item that has collected nothing has not collected too much. -/
theorem Aspires.rewarded (h : item.Aspires) : item.Rewarded := by
  obtain ⟨l, hl⟩ := List.exists_mem_of_ne_nil _ h.climbing.ne_nil
  have htop := (h.climbing.nonneg l hl).trans (le_topReward_of_climbing h.climbing hl)
  exact ⟨h.reward_eq.ge, h.reward_eq ▸ htop⟩

/-- An item collects what the level pays that it is funded with; a part of a level pays nothing. -/
theorem Aspires.rewarded_fund (h : item.Aspires) (money : Rat) :
    (item.fund money).1.Rewarded := by
  unfold fund
  cases hafford : item.affordable? money with
  | some pair =>
    obtain ⟨l, i⟩ := pair
    have hl := (affordable?_eq_some hafford).1
    exact ⟨h.climbing.nonneg l hl, le_topReward_of_climbing h.climbing hl⟩
  | none =>
    dsimp only
    split
    next => exact ⟨h.rewarded.nonneg, h.rewarded.le_top⟩
    next => exact h.rewarded

end BucketItem

namespace Bucket

/-- By induction on the items: the money one item is funded from does not matter. -/
theorem rewarded_fundAll {items : List (BucketItem Rat)} (h : ∀ item ∈ items, item.Aspires)
    (money : Rat) : ∀ item ∈ (fundAll money items).1, item.Rewarded := by
  induction items generalizing money with
  | nil => exact fun item hitem => absurd hitem List.not_mem_nil
  | cons first rest ih =>
    obtain ⟨hfirst, hrest⟩ := List.forall_mem_cons.mp h
    unfold fundAll
    intro item hitem
    rcases List.mem_cons.mp hitem with rfl | hitem
    · exact hfirst.rewarded_fund money
    · exact ih hrest _ item hitem

/-- A bucket is spent when its items are funded, so no item collects more than its highest level
pays. -/
theorem rewarded_spend {b : Bucket Rat} (h : ∀ item ∈ b.items, item.Aspires)
    (hbudget : 0 ≤ b.budget) : ∀ item ∈ b.spend.items, item.Rewarded := by
  obtain ⟨_, hspent, _⟩ := exhausted_spend (fun item hitem => (h item hitem).toIsUntouched) hbudget
  rw [(Prod.mk.inj hspent).1]
  exact rewarded_fundAll
    (fun item hitem => h item ((List.mergeSort_perm _ _).mem_iff.mp hitem)) b.budget

end Bucket

namespace Hybrid

variable {b : Budget Rat} {s : Scenario Rat} {key : String}

/-! ## The items of a budget -/

/-- Three steps of a positive target, with fractions and rewards that rise. -/
theorem climbing_threeSteps {target scale f₁ r₁ f₂ r₂ r₃ : Rat} (htarget : 0 ≤ target)
    (hscale : 0 ≤ scale) (hfractions : f₁ ≤ f₂ ∧ f₂ ≤ 1) (hrewards : 0 ≤ r₁ ∧ r₁ ≤ r₂ ∧ r₂ ≤ r₃) :
    Climbing (ladder target scale (threeSteps f₁ r₁ f₂ r₂ r₃)) := by
  obtain ⟨hf₁, hf₂⟩ := hfractions
  obtain ⟨hr₁, hr₂, hr₃⟩ := hrewards
  refine ⟨List.cons_ne_nil _ _, ?_, ?_⟩
  · simp only [ladder, threeSteps, List.map_cons, List.map_nil, List.forall_mem_cons,
      List.not_mem_nil, false_imp_iff, implies_true, and_true]
    exact ⟨mul_nonneg hr₁ hscale, mul_nonneg (hr₁.trans hr₂) hscale,
      mul_nonneg (hr₁.trans (hr₂.trans hr₃)) hscale⟩
  · simp only [ladder, threeSteps, List.map_cons, List.map_nil, List.isChain_cons_cons,
      List.isChain_singleton, and_true]
    exact ⟨⟨mul_le_mul_of_nonneg_left hf₁ htarget, mul_le_mul_of_nonneg_right hr₂ hscale⟩,
      mul_le_mul_of_nonneg_left hf₂ htarget, mul_le_mul_of_nonneg_right hr₃ hscale⟩

theorem aspires_goalItem {factor : Rat} {g : Goal Rat} {item : BucketItem Rat}
    (h : goalItem factor key g = .ok (some item)) : item.Aspires := by
  have huntouched := isUntouched_goalItem h
  unfold goalItem at h
  dsimp only at h
  split at h
  next => cases h
  next htarget =>
    have hpos := (not_le.mp htarget).le
    obtain ⟨_, _, h⟩ := bind_eq_ok.mp h
    cases h
    refine ⟨huntouched, rfl, ?_⟩
    show Climbing (ladder _ 1 (if g.isEmergency then emergencySteps else goalSteps g.priority))
    split
    next => exact climbing_threeSteps hpos zero_le_one (by norm_num) (by norm_num)
    next =>
      cases g.priority <;> exact climbing_threeSteps hpos zero_le_one (by norm_num) (by norm_num)

theorem debtReward_nonneg (interestRate : Rat) : 0 ≤ debtReward interestRate := by
  unfold debtReward
  split_ifs <;> norm_num

theorem aspires_debtItem {share : Rat} {d : Debt Rat} {item : BucketItem Rat}
    (h : debtItem share key d = some item) : item.Aspires := by
  have huntouched := isUntouched_debtItem h
  unfold debtItem at h
  dsimp only at h
  split at h
  next => cases h
  next hcond =>
    simp only [Bool.or_eq_true, decide_eq_true_eq, not_or] at hcond
    cases h
    exact ⟨huntouched, rfl, climbing_threeSteps (not_le.mp hcond.2).le (debtReward_nonneg _)
      (by norm_num) (by norm_num)⟩

theorem aspires_flexibleItem {level : Rat} {c : Category Rat} {item : BucketItem Rat}
    (h : flexibleItem level key c = some item) : item.Aspires := by
  have huntouched := isUntouched_flexibleItem h
  unfold flexibleItem at h
  dsimp only at h
  split at h
  next => cases h
  next hextra =>
    have hpos := not_le.mp hextra
    cases h
    refine ⟨huntouched, rfl, List.cons_ne_nil _ _, ?_, ?_⟩
    · norm_num [BucketItem.fresh]
    · simp only [BucketItem.fresh, List.isChain_cons_cons, List.isChain_singleton, and_true]
      refine ⟨⟨?_, ?_⟩, ?_, ?_⟩ <;> linarith

/-- Before the buckets are spent no item has collected anything. -/
theorem aspires_of_mem_buckets {surplus : Rat} {bs : List (Bucket Rat)}
    (h : buckets b s surplus = .ok bs) : ∀ bucket ∈ bs, ∀ item ∈ bucket.items, item.Aspires := by
  intro bucket hbucket item hitem
  rcases item_of_mem_buckets h hbucket hitem with
    ⟨_, _, _, hmade⟩ | ⟨_, _, _, hmade⟩ | ⟨_, _, _, hmade⟩
  · exact aspires_goalItem hmade
  · exact aspires_debtItem hmade
  · exact aspires_flexibleItem hmade

/-! ## The rewards -/

section
variable {r : HybridResult Rat} (h : solve b s = .ok r)
include h

/-- No item of a result has collected too much. -/
theorem rewarded_of_solve : ∀ item ∈ r.buckets.flatMap (·.items), item.Rewarded := by
  obtain ⟨_, _, _, _, _, bs, hbs, hspent⟩ := solve_spec h
  intro item hitem
  rw [hspent] at hitem
  obtain ⟨spent, hmem, hitem⟩ := List.mem_flatMap.mp hitem
  obtain ⟨bucket, hbucket, rfl⟩ := List.mem_map.mp hmem
  have hbudget := ((buckets_facts (le_max_left _ _) hbs).2 bucket hbucket).1
  exact Bucket.rewarded_spend (aspires_of_mem_buckets hbs bucket hbucket) hbudget item hitem

/-- What was collected and what could have been: the same for the first phase, and the rewards of
the items. -/
theorem rewards_eq :
    r.totalReward = basicReward * ((rewardedDetails b).length : Rat) +
        ((r.buckets.flatMap (·.items)).map (·.reward)).sum ∧
      r.maxReward = basicReward * ((rewardedDetails b).length : Rat) +
        ((r.buckets.flatMap (·.items)).map (·.topReward)).sum := by
  unfold solve at h
  dsimp only at h
  split at h
  next => cases h
  next =>
    obtain ⟨bs, _, h⟩ := bind_eq_ok.mp h
    cases h
    rw [← foldl_add_eq, ← foldl_add_eq]
    exact ⟨List.foldl_map.symm, List.foldl_map.symm⟩

/-- No more is collected than can be. -/
theorem totalReward_between : 0 ≤ r.totalReward ∧ r.totalReward ≤ r.maxReward := by
  have hrewarded := rewarded_of_solve h
  obtain ⟨htotal, hmax⟩ := rewards_eq h
  have hsure : (0 : Rat) ≤ basicReward * ((rewardedDetails b).length : Rat) :=
    mul_nonneg (by norm_num [basicReward]) (Nat.cast_nonneg _)
  have hcollected : 0 ≤ ((r.buckets.flatMap (·.items)).map (·.reward)).sum := by
    refine List.sum_nonneg fun x hx => ?_
    obtain ⟨item, hitem, rfl⟩ := List.mem_map.mp hx
    exact (hrewarded item hitem).nonneg
  have hle : ((r.buckets.flatMap (·.items)).map (·.reward)).sum ≤
      ((r.buckets.flatMap (·.items)).map (·.topReward)).sum :=
    List.sum_le_sum fun item hitem => (hrewarded item hitem).le_top
  rw [htotal, hmax]
  constructor <;> linarith

/-- The score of the hybrid strategy is one from 0 to 100. -/
theorem score_between : 0 ≤ r.proposal.score ∧ r.proposal.score ≤ 100 := by
  obtain ⟨hnonneg, hle⟩ := totalReward_between h
  unfold HybridResult.proposal
  dsimp only
  split
  next hpos =>
    have hratio : r.totalReward / r.maxReward ≤ 1 := div_le_one_of_le₀ hle hpos.le
    rw [mul_div_assoc]
    exact ⟨mul_nonneg (by norm_num) (div_nonneg hnonneg hpos.le), by linarith⟩
  next => norm_num

end

end Hybrid

end GoalBudget
