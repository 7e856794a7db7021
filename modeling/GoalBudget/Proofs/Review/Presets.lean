import GoalBudget.Proofs.Allocation.Unrounded
import GoalBudget.Proofs.Review.Accounting

/-!
# The conservative preset keeps flexible spending down

The presets differ in how much they want for goals and for flexible categories, and the passes push
what is left to the goals first. Still, with strict order and no rounding, flexible spending is no
higher with the conservative preset than with the aggressive one, but for the tolerance of the
passes.

All that matters is the spending level. At level 0 flexible categories start from their minimums and
get nothing more before all goals are reached: they have their minimums in the end, or no more than
what complete goals leave (`floor_or_le_of_levelZero`). At level 1 they end with no less than that,
unless every category has its maximum (`ge_or_maximum_of_levelOne`).

The two runs are never compared step by step. Each is bounded against what complete goals would
leave of the income (`Budget.missing`), which is the same number for both; the shares and the goal
factor of the presets drop out there.

Main result: `conservative_keeps_flexible_down`.
-/

namespace GoalBudget

variable {b : Budget Rat} {s : Scenario Rat}

/-! ## Spending levels -/

/-- At level zero the target is the minimum. -/
theorem Category.targetAt_zero (c : Category Rat) : c.targetAt 0 = c.minimum := by
  unfold targetAt flexibleTarget
  split
  next => rw [mul_zero, add_zero]
  next => rfl

theorem Category.targetAt_one {c : Category Rat} (h : 0 < c.maximum) :
    c.targetAt 1 = c.maximum := by
  rw [targetAt, flexibleTarget, if_pos h, mul_one, add_sub_cancel]

/-- The conservative preset has level zero. -/
theorem Preset.spendingLevel_conservative (h : Preset.conservative.scenario = .ok s) :
    s.spendingLevel = 0 := by
  have hlevel : ((Preset.conservative.scenario : Except _ (Scenario Rat)).toOption.map
      (·.spendingLevel)) = some 0 := by decide +kernel
  rw [h] at hlevel
  exact Option.some.inj hlevel

theorem Preset.spendingLevel_aggressive (h : Preset.aggressive.scenario = .ok s) :
    s.spendingLevel = 1 := by
  have hlevel : ((Preset.aggressive.scenario : Except _ (Scenario Rat)).toOption.map
      (·.spendingLevel)) = some 1 := by decide +kernel
  rw [h] at hlevel
  exact Option.some.inj hlevel

namespace DeviationProgram

variable {p : DeviationProgram Rat} {ws : List Wish} {w : Wish} {i : Nat} {key : String}
  {c : Category Rat}

/-- A wish for no more than the lower bound gets just that. -/
theorem AimsAt.amount_served_of_modest (h : p.AimsAt ws) (hw : ws[i]? = some w)
    (hmodest : w.target ≤ w.on.minimum) : p.served.amount i = w.on.minimum := by
  have hneed : needAt ws i = 0 := by
    refine le_antisymm ?_ (needAt_nonneg ws i)
    rw [needAt, hw, Option.elim_some, Wish.need]
    exact (Limit.hold_le _ _).trans_eq (max_eq_left (sub_nonpos.mpr hmodest))
  have hmem : i ∈ p.queue :=
    h.queue_perm.mem_iff.mpr (List.mem_range.mpr (List.getElem?_eq_some_iff.mp hw).1)
  obtain ⟨front, back, hqueue⟩ := List.append_of_mem hmem
  rw [h.amount_served hqueue, h.amount_start hw, hneed, min_eq_left (le_max_left _ _), add_zero]

/-- Where something is left, a wish for the upper bound gets it. -/
theorem AimsAt.amount_served_of_greedy (h : p.AimsAt ws) (hw : ws[i]? = some w)
    (hbounded : w.on.isBounded = true) (hgreedy : w.target = w.on.maximum)
    (hleft : 0 < p.served.left) : p.served.amount i = w.on.maximum := by
  have hneed : needAt ws i = w.on.maximum - w.on.minimum := by
    rw [needAt, hw, Option.elim_some, Wish.need, Variable.headroom, if_pos hbounded, hgreedy,
      Limit.hold_upTo, greatest_eq_max, min_self,
      max_eq_right (sub_nonneg.mpr (Variable.minimum_le_of_isBounded hbounded))]
  rw [h.amount_served_of_left hleft (List.getElem?_eq_some_iff.mp hw).1, h.amount_start hw, hneed,
    add_sub_cancel]

/-- Every flexible category has its wish. -/
theorem exists_flexibleWish (s : Scenario Rat) (hc : b.flexible.get? key = some c) : ∃ i : Nat,
    (wishes b s)[i]? = some (Wish.mk (c.asVariable key) (c.targetAt s.spendingLevel)) :=
  List.mem_iff_getElem?.mp
    (List.mem_append_right _ (mem_flexibleWishes.mpr ⟨key, c, hc, rfl⟩))

namespace TiersFor

variable (h : TiersFor b s p)
include h

/-- At level 0 flexible categories start from their minimums. -/
theorem flexible_of_levelZero (hlevel : s.spendingLevel = 0) :
    (p.pools b).flexible = b.flexible.sorted.map fun _ c => c.minimum := by
  unfold pools
  dsimp only
  refine Ledger.map_congr fun key c hmem => ?_
  have hc := Ledger.get?_of_mem (Ledger.mem_entries_sorted.mp hmem)
  obtain ⟨i, hi⟩ := exists_flexibleWish s hc
  refine (h.getD_values hi).trans (h.aims.amount_served_of_modest hi ?_)
  rw [hlevel, Category.targetAt_zero]
  exact le_rfl

/-- At level 1 flexible categories start from their maximums, where something is left. -/
theorem flexible_of_levelOne (hlevel : s.spendingLevel = 1) (hleft : 0 < p.served.left)
    (hc : b.flexible.get? key = some c) (hmax : 0 < c.maximum) :
    (p.pools b).flexible.get? key = some c.maximum := by
  obtain ⟨i, hi⟩ := exists_flexibleWish s hc
  have hamount := h.aims.amount_served_of_greedy hi (decide_eq_true hmax)
    (by rw [hlevel]; exact Category.targetAt_one hmax) hleft
  rw [pools, Ledger.get?_map, Ledger.get?_sorted, hc, Option.map_some]
  exact congrArg some ((h.getD_values hi).trans hamount)

end TiersFor

end DeviationProgram

/-! ## What goals leave to flexible categories -/

/-- What is missing for all goals together. -/
def Budget.missing (b : Budget Rat) : Rat := (b.goals.map fun _ g => g.remainingAmount).values.sum

namespace Pools.Within

variable {p : Pools Rat} (h : p.Within b)
include h

theorem goals_perm : p.goals.keys.Perm (b.goals.map fun _ g => g.remainingAmount).keys := by
  rw [h.goals_keys, Ledger.keys_map]
  exact Ledger.keys_sorted_perm

/-- Goals get no more than what is missing. -/
theorem goals_le_missing : p.goals.values.sum ≤ b.missing := by
  refine Ledger.sum_values_le_of_le h.goals_perm fun key x y hx hy => ?_
  obtain ⟨g, hg, rfl⟩ := Option.map_eq_some_iff.mp (Ledger.get?_map _ ▸ hy)
  exact (h.goals_admit key x g hx hg).2

theorem missing_le_of_goalsFull (hfull : p.GoalsFull b) :
    b.missing ≤ p.goals.values.sum + b.goals.size * normalizationTolerance := by
  have hclose (key : String) (x : Rat)
      (hx : (b.goals.map fun _ g => g.remainingAmount).get? key = some x) :
      x ≤ p.goals.getD key 0 + normalizationTolerance := by
    obtain ⟨y, hy⟩ :=
      Ledger.mem_keys_iff.mp (h.goals_perm.mem_iff.mpr (Ledger.mem_keys_of_get? hx))
    obtain ⟨g, hg, rfl⟩ := Option.map_eq_some_iff.mp (Ledger.get?_map _ ▸ hx)
    have := hfull key y g hy hg
    rw [Ledger.getD_eq hy]
    linarith
  have hle := Ledger.sum_values_le hclose
  rwa [Ledger.sum_getD_keys h.goals_perm.symm, Ledger.size, Ledger.map, List.length_map] at hle

/-- Flexible categories have their minimums. -/
theorem floor_le_flexible : flexibleFloor b ≤ p.flexible.values.sum := by
  have hexcess : 0 ≤ excessOver (minimumFloors b) p.flexible := excessOver_nonneg
  rw [excessOver_minimumFloors h] at hexcess
  exact sub_nonneg.mp hexcess

end Pools.Within

namespace Allocator

variable {a : Allocator Rat} {t : Scenario Rat} {r q : Allocation Rat} {p : DeviationProgram Rat}

/-- What flexible categories get in the end is what the passes make of what strict order gives. -/
theorem exists_tiers_flexible (hstrategy : a.strategy = .preemptive)
    (hunit : ∀ u ∈ a.roundingUnit, u = 0) (h : a.solve b s = .ok r) :
    ∃ p, DeviationProgram.TiersFor b s p ∧ (r.summary b).flexible =
      (normalize b s b.committed maxPasses (p.pools b)).flexible.values.sum := by
  obtain ⟨proposal, start, hrun⟩ := solve_eq_ok h
  obtain ⟨p, htiers, rfl, hsettled⟩ := hrun.exists_tiers hstrategy hunit
  exact ⟨p, htiers, hsettled ▸ hrun.summary_flexible⟩

/-- At level 0 flexible categories have their minimums in the end, or no more than what complete
goals leave, but for the tolerance. -/
theorem floor_or_le_of_levelZero (h : DeviationProgram.TiersFor b s p)
    (hlevel : s.spendingLevel = 0) (passes : Nat) :
    (normalize b s b.committed passes (p.pools b)).flexible.values.sum = flexibleFloor b ∨
    (normalize b s b.committed passes (p.pools b)).flexible.values.sum ≤
      b.income - b.committed - b.missing + b.goals.size * normalizationTolerance := by
  have hend := within_normalize (s := s) b.committed passes h.within_pools
  rcases normalize_flexible_eq_or_goalsFull (s := s) passes h.within_pools h.not_over_pools with
    hsame | ⟨hfull, hrest⟩
  · left
    rw [hsame, h.flexible_of_levelZero hlevel, Ledger.sum_values_map_sorted]
    rfl
  · right
    have hmissing := hend.missing_le_of_goalsFull hfull
    rw [residual_eq] at hrest
    linarith

/-- At level 1 flexible categories have no less than what complete goals leave, but for the
tolerance, or each of them has its maximum. -/
theorem ge_or_maximum_of_levelOne (h : DeviationProgram.TiersFor b s p)
    (hlevel : s.spendingLevel = 1) {passes : Nat}
    (hpasses : b.goals.size + 2 * b.flexible.size ≤ passes) (hpos : 0 < passes) :
    b.income - b.committed - b.missing - normalizationTolerance ≤
      (normalize b s b.committed passes (p.pools b)).flexible.values.sum ∨
    ∀ key x c, (normalize b s b.committed passes (p.pools b)).flexible.get? key = some x →
      b.flexible.get? key = some c → 0 < c.maximum ∧ c.maximum ≤ x := by
  have hstart := h.within_pools
  have hend := within_normalize (s := s) b.committed passes hstart
  have hgoals := hend.goals_le_missing
  have henough
      (hmet : residual b.income b.committed (normalize b s b.committed passes (p.pools b)) ≤
      normalizationTolerance) : b.income - b.committed - b.missing - normalizationTolerance ≤
        (normalize b s b.committed passes (p.pools b)).flexible.values.sum := by
    rw [residual_eq] at hmet
    linarith
  by_cases hleft : 0 < p.served.left
  · have hminimums : b.committed + (b.flexible.map fun _ c => c.minimum).values.sum ≤
        b.income + normalizationTolerance := by
      have hfloor := hstart.floor_le_flexible
      have hover := h.not_over_pools
      have hnonneg : 0 ≤ (p.pools b).goals.values.sum := List.sum_nonneg hstart.goals_nonneg
      rw [residual_eq] at hover
      rw [flexibleFloor] at hfloor
      linarith
    have hsettled := settled_normalize (s := s) hstart hminimums hpasses hpos
    rcases hsettled.met_or_full with hmet | hfull
    · exact .inl (henough hmet)
    · refine .inr fun key x c hx hc => ?_
      obtain ⟨hmax, _⟩ := hfull.2 key x c hx hc
      obtain ⟨y, hy, hle⟩ := normalize_flexible_ge_of_not_over (s := s) passes hstart
        h.not_over_pools (h.flexible_of_levelOne hlevel hleft hc hmax)
      cases hx.symm.trans hy
      exact ⟨hmax, hle⟩
  -- nothing is left, so the passes have nothing to do
  · refine .inl (henough ?_)
    rw [h.normalize_pools_of_spent (not_lt.mp hleft)]
    exact h.residual_pools_le.trans ((not_lt.mp hleft).trans normalizationTolerance_nonneg)

/-- With spending level 0 flexible categories get no more than with spending level 1, but for the
tolerance of the passes. -/
theorem flexible_le_of_levels (hstrategy : a.strategy = .preemptive)
    (hunit : ∀ u ∈ a.roundingUnit, u = 0)
    (hpasses : b.goals.size + 2 * b.flexible.size ≤ maxPasses) (hs : s.spendingLevel = 0)
    (ht : t.spendingLevel = 1) (h : a.solve b s = .ok r) (h' : a.solve b t = .ok q) :
    (r.summary b).flexible ≤
      (q.summary b).flexible + normalizationTolerance * (b.goals.size + 1) := by
  obtain ⟨p, htiers, hflexible⟩ := exists_tiers_flexible hstrategy hunit h
  obtain ⟨p', htiers', hflexible'⟩ := exists_tiers_flexible hstrategy hunit h'
  have hend := within_normalize (s := s) b.committed maxPasses htiers.within_pools
  have hend' := within_normalize (s := t) b.committed maxPasses htiers'.within_pools
  have hslack : (0 : Rat) ≤ normalizationTolerance * (b.goals.size + 1) :=
    mul_nonneg normalizationTolerance_nonneg (by positivity)
  rw [hflexible, hflexible']
  -- At level zero the categories hold their minimums or no more than complete goals leave; at
  -- level one they hold no less than that, or their maximums.
  rcases floor_or_le_of_levelZero htiers hs maxPasses with hfloor | hle
  · have := hend'.floor_le_flexible
    linarith
  · rcases ge_or_maximum_of_levelOne htiers' ht hpasses (by decide) with hge | hmaximum
    · linarith
    · have hperm := (List.Perm.of_eq hend.flexible_keys).trans
        (List.Perm.of_eq hend'.flexible_keys.symm)
      have hless := Ledger.sum_values_le_of_le hperm fun key x y hx hy => by
        obtain ⟨c, hc, hadmits⟩ := hend.category_of_get? hx
        obtain ⟨hmax, hy⟩ := hmaximum key y c hy hc
        exact (hadmits.2 hmax).trans hy
      linarith

/-- With strict order and no rounding, the conservative preset gives flexible categories no more
than the aggressive one, but for a hundredth for every goal and another one. -/
theorem conservative_keeps_flexible_down (hstrategy : a.strategy = .preemptive)
    (hunit : ∀ u ∈ a.roundingUnit, u = 0) (hpasses : b.goals.size + 2 * b.flexible.size ≤ 100)
    (hs : Preset.conservative.scenario = .ok s) (ht : Preset.aggressive.scenario = .ok t)
    (h : a.solve b s = .ok r) (h' : a.solve b t = .ok q) :
    (r.summary b).flexible ≤ (q.summary b).flexible + 0.01 * (b.goals.size + 1) :=
  flexible_le_of_levels hstrategy hunit hpasses (Preset.spendingLevel_conservative hs)
    (Preset.spendingLevel_aggressive ht) h h'

/-- The household under both presets. -/
theorem conservative_keeps_flexible_down_household : ∃ s t r q,
    Preset.conservative.scenario = .ok s ∧ Preset.aggressive.scenario = .ok t ∧
      (exactly .preemptive).solve household s = .ok r ∧
      (exactly .preemptive).solve household t = .ok q ∧
      (r.summary household).flexible ≤ (q.summary household).flexible + 0.01 * 2 := by
  obtain ⟨r, hr⟩ := exists_of_isOk
    (x := Preset.conservative.scenario >>= (exactly .preemptive).solve household) (by cbv)
  obtain ⟨q, hq⟩ := exists_of_isOk
    (x := Preset.aggressive.scenario >>= (exactly .preemptive).solve household) (by cbv)
  obtain ⟨s, hs, hsolve⟩ := bind_eq_ok.mp hr
  obtain ⟨t, ht, hsolve'⟩ := bind_eq_ok.mp hq
  have hle := conservative_keeps_flexible_down rfl (by rintro u ⟨⟩) (by decide) hs ht hsolve hsolve'
  have hslack : (0.01 : Rat) * (household.goals.size + 1) = 0.01 * 2 := by
    norm_num [household, Ledger.size]
  rw [hslack] at hle
  exact ⟨s, t, r, q, hs, ht, hsolve, hsolve', hle⟩

end Allocator

end GoalBudget
