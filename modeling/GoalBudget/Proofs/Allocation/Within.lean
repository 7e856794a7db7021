import GoalBudget.Proofs.Allocation.Spread
import GoalBudget.Proofs.Allocation.Trim

/-!
# Amounts within their bounds

`Pools.Within`: goals get nothing negative and no more than what is missing, flexible categories
stay within their bounds, and there is one amount for every goal and every flexible category of the
budget. Both ways of moving towards the income keep this, and say what they do to the total:
`within_absorbSurplus`, `absorbSurplus_balance` and `within_of_recovered`.

The room of an entry is what its bounds leave, but for two differences. Room of a cent or less does
not count, and a category below its target has room up to the target only (`get?_goalRoom`,
`get?_flexibleRoom`). So filling an entry up to its room keeps it within bounds
(`Category.admits_of_le_cap`), and a budget without room is full but for a cent for each entry.

That all passes keep the bounds is an induction on passes (`within_normalize`), and the only one in
this module.
-/

namespace GoalBudget

/-- The amounts a category may have. -/
def Category.Admits (c : Category Rat) (x : Rat) : Prop :=
  c.minimum ≤ x ∧ (0 < c.maximum → x ≤ c.maximum)

/-- The amounts a goal may have. -/
def Goal.Admits (g : Goal Rat) (x : Rat) : Prop := 0 ≤ x ∧ x ≤ g.remainingAmount

/-- One amount for every goal and every flexible category, within the bounds. -/
structure Pools.Within (b : Budget Rat) (p : Pools Rat) : Prop where
  /-- There is one amount for every goal. -/
  goals_keys : p.goals.keys = b.goals.sorted.keys
  /-- There is one amount for every flexible category. -/
  flexible_keys : p.flexible.keys = b.flexible.sorted.keys
  /-- Goals get nothing negative and no more than what is missing. -/
  goals_admit : ∀ key x g, p.goals.get? key = some x → b.goals.get? key = some g → g.Admits x
  /-- Flexible categories stay within their bounds. -/
  flexible_admit : ∀ key x c, p.flexible.get? key = some x → b.flexible.get? key = some c →
    c.Admits x

variable {b : Budget Rat} {s : Scenario Rat} {p : Pools Rat} {amount x : Rat} {key : String}

/-! ## What being within bounds gives -/

namespace Pools.Within

variable (h : p.Within b)
include h

/-- An amount of a goal is one that the goal admits. -/
theorem goal_of_get? (hx : p.goals.get? key = some x) :
    ∃ g, b.goals.get? key = some g ∧ g.Admits x := by
  have hmem : key ∈ b.goals.sorted.keys := h.goals_keys ▸ Ledger.mem_keys_of_get? hx
  obtain ⟨g, hg⟩ := Ledger.mem_keys_iff.mp (Ledger.keys_sorted_perm.mem_iff.mp hmem)
  exact ⟨g, hg, h.goals_admit key x g hx hg⟩

/-- An amount of a category is one that the category admits. -/
theorem category_of_get? (hx : p.flexible.get? key = some x) :
    ∃ c, b.flexible.get? key = some c ∧ c.Admits x := by
  have hmem : key ∈ b.flexible.sorted.keys := h.flexible_keys ▸ Ledger.mem_keys_of_get? hx
  obtain ⟨c, hc⟩ := Ledger.mem_keys_iff.mp (Ledger.keys_sorted_perm.mem_iff.mp hmem)
  exact ⟨c, hc, h.flexible_admit key x c hx hc⟩

theorem goals_nonneg (x : Rat) (hx : x ∈ p.goals.values) : 0 ≤ x := by
  obtain ⟨e, he, rfl⟩ := List.mem_map.mp hx
  obtain ⟨_, _, hadmits⟩ := h.goal_of_get? (Ledger.get?_of_mem he)
  exact hadmits.1

theorem flexible_nonneg (x : Rat) (hx : x ∈ p.flexible.values) : 0 ≤ x := by
  obtain ⟨e, he, rfl⟩ := List.mem_map.mp hx
  obtain ⟨c, _, hadmits⟩ := h.category_of_get? (Ledger.get?_of_mem he)
  exact (not_lt.mp c.minimum_nonneg).trans hadmits.1

theorem goals_getD_nonneg (key : String) : 0 ≤ p.goals.getD key 0 :=
  Ledger.getD_nonneg fun x hx => h.goals_nonneg x (Ledger.mem_values_of_get? hx)

theorem flexible_getD_nonneg (key : String) : 0 ≤ p.flexible.getD key 0 :=
  Ledger.getD_nonneg fun x hx => h.flexible_nonneg x (Ledger.mem_values_of_get? hx)

end Pools.Within

/-! ## Room -/

/-- What room a goal has: there is some only if more than the tolerance is missing. -/
theorem get?_goalRoom {goals : Ledger Rat} {r : Limit Rat} :
    (goalRoom b goals).get? key = some r ↔ ∃ x, goals.get? key = some x ∧
      normalizationTolerance < ((b.goals.get? key).elim 0 fun g => g.remainingAmount - x) ∧
      r = .upTo ((b.goals.get? key).elim 0 fun g => g.remainingAmount - x) := by
  unfold goalRoom
  dsimp only
  rw [Ledger.get?_map, Option.map_eq_some_iff]
  simp only [Ledger.get?_filter, Ledger.get?_map, Option.map_eq_some_iff, decide_eq_true_iff]
  constructor
  · rintro ⟨_, ⟨⟨x, hx, rfl⟩, hroom⟩, rfl⟩
    exact ⟨x, hx, hroom, rfl⟩
  · rintro ⟨x, hx, hroom, rfl⟩
    exact ⟨_, ⟨⟨x, hx, rfl⟩, hroom⟩, rfl⟩

/-- What room a flexible category has: up to its cap, and more than the tolerance. -/
theorem get?_flexibleRoom {flexible : Ledger Rat} {r : Limit Rat} :
    (flexibleRoom b s flexible).get? key = some r ↔
      r.exceeds normalizationTolerance = true ∧ ∃ x, flexible.get? key = some x ∧
        r = (b.flexible.get? key).elim (.upTo 0) fun c =>
          (flexibleCap s.spendingLevel c x).minus x := by
  unfold flexibleRoom
  dsimp only
  rw [Ledger.get?_filter, Ledger.get?_map, Option.map_eq_some_iff, and_comm]
  constructor
  · rintro ⟨hroom, x, hx, rfl⟩
    exact ⟨hroom, x, hx, rfl⟩
  · rintro ⟨hroom, x, hx, rfl⟩
    exact ⟨hroom, x, hx, rfl⟩

/-- A limit that exceeds some amount exceeds a lesser one. -/
theorem Limit.exceeds_mono {x y : Rat} (h : x ≤ y) {r : Limit Rat} (hr : r.exceeds y = true) :
    r.exceeds x = true := by
  cases r with
  | upTo bound => exact decide_eq_true (lt_of_le_of_lt h (of_decide_eq_true hr))
  | endless => rfl

theorem normalizationTolerance_nonneg : (0 : Rat) ≤ normalizationTolerance := by
  norm_num [normalizationTolerance]

/-- The target of a category lies within its bounds. -/
theorem Category.admits_targetAt (c : Category Rat) : c.Admits (c.targetAt s.spendingLevel) := by
  have hzero : 0 ≤ s.spendingLevel := s.zero_le_spendingLevel
  have hone : s.spendingLevel ≤ 1 := s.spendingLevel_le_one
  unfold Category.Admits Category.targetAt flexibleTarget
  split
  next hmax =>
    have hle : c.minimum ≤ c.maximum := not_lt.mp fun hlt => c.minimum_le_maximum ⟨hmax, hlt⟩
    constructor
    · have := mul_nonneg (sub_nonneg.mpr hle) hzero
      linarith
    · intro _
      have := mul_le_mul_of_nonneg_left hone (sub_nonneg.mpr hle)
      linarith
  next hmax => exact ⟨le_refl _, fun h => absurd h hmax⟩

/-- Filling up to the cap stays within the bounds. -/
theorem Category.admits_of_le_cap {c : Category Rat} {y : Rat} (hx : c.Admits x) (hle : x ≤ y)
    (hcap : ∀ bound, flexibleCap s.spendingLevel c x = .upTo bound → y ≤ bound) : c.Admits y := by
  refine ⟨hx.1.trans hle, fun hmax => ?_⟩
  unfold flexibleCap at hcap
  dsimp only at hcap
  split at hcap
  next => exact hcap _ rfl
  next => exact (hcap _ rfl).trans ((c.admits_targetAt (s := s)).2 hmax)

theorem keys_goalRoom_subset {goals : Ledger Rat} (key : String)
    (h : key ∈ (goalRoom b goals).keys) : key ∈ goals.keys := by
  obtain ⟨r, hr⟩ := Ledger.mem_keys_iff.mp h
  obtain ⟨x, hx, _⟩ := get?_goalRoom.mp hr
  exact Ledger.mem_keys_of_get? hx

theorem keys_flexibleRoom_subset {flexible : Ledger Rat} (key : String)
    (h : key ∈ (flexibleRoom b s flexible).keys) : key ∈ flexible.keys := by
  obtain ⟨r, hr⟩ := Ledger.mem_keys_iff.mp h
  obtain ⟨_, x, hx, _⟩ := get?_flexibleRoom.mp hr
  exact Ledger.mem_keys_of_get? hx

/-- A surplus can be shared among the goals. -/
theorem sharable_goals (h : p.Within b) (hamount : 0 < amount) :
    Sharable amount p.goals (goalRoom b p.goals) where
  amount_pos := hamount
  nonneg key _ := h.goals_getD_nonneg key
  exceeds key r hr := by
    obtain ⟨x, _, hroom, rfl⟩ := get?_goalRoom.mp hr
    exact decide_eq_true (lt_of_le_of_lt normalizationTolerance_nonneg hroom)

theorem sharable_flexible (h : p.Within b) (hamount : 0 < amount) :
    Sharable amount p.flexible (flexibleRoom b s p.flexible) where
  amount_pos := hamount
  nonneg key _ := h.flexible_getD_nonneg key
  exceeds _ _ hr := Limit.exceeds_mono normalizationTolerance_nonneg (get?_flexibleRoom.mp hr).1

/-! ## A surplus shared -/

/-- Sharing among the goals keeps the bounds. -/
theorem within_goals_spread (h : p.Within b) (hamount : 0 < amount) :
    Pools.Within b { p with goals := (spread amount p.goals (goalRoom b p.goals)).1 } := by
  refine ⟨keys_spread.trans h.goals_keys, h.flexible_keys, ?_, h.flexible_admit⟩
  intro key y g hy hg
  rw [get?_spread, Option.map_eq_some_iff] at hy
  obtain ⟨x, hx, rfl⟩ := hy
  have hadmits : g.Admits x := h.goals_admit key x g hx hg
  have hgain := (sharable_goals h hamount).spreadGain_nonneg key
  refine ⟨by linarith [hadmits.1], ?_⟩
  cases hr : (goalRoom b p.goals).get? key with
  | none =>
    rw [spreadGain_eq_zero hr, add_zero]
    exact hadmits.2
  | some r =>
    obtain ⟨z, hz, _, rfl⟩ := get?_goalRoom.mp hr
    rw [hx, Option.some.injEq] at hz
    rw [hg, ← hz, Option.elim_some] at hr
    have hle : spreadGain amount p.goals (goalRoom b p.goals) key ≤ g.remainingAmount - x :=
      spreadGain_le_room hr
    linarith

theorem within_flexible_spread (h : p.Within b) (hamount : 0 < amount) :
    Pools.Within b
      { p with flexible := (spread amount p.flexible (flexibleRoom b s p.flexible)).1 } := by
  refine ⟨h.goals_keys, keys_spread.trans h.flexible_keys, h.goals_admit, ?_⟩
  intro key y c hy hc
  rw [get?_spread, Option.map_eq_some_iff] at hy
  obtain ⟨x, hx, rfl⟩ := hy
  have hadmits : c.Admits x := h.flexible_admit key x c hx hc
  have hgain := (sharable_flexible (s := s) h hamount).spreadGain_nonneg key
  -- a category without room does not grow, the others grow up to their cap
  cases hr : (flexibleRoom b s p.flexible).get? key with
  | none =>
    rw [spreadGain_eq_zero hr, add_zero]
    exact hadmits
  | some r =>
    obtain ⟨_, z, hz, hroom⟩ := get?_flexibleRoom.mp hr
    rw [hx, Option.some.injEq] at hz
    rw [hc, ← hz, Option.elim_some] at hroom
    refine Category.admits_of_le_cap (s := s) hadmits (by linarith) ?_
    intro bound hbound
    rw [hroom, hbound] at hr
    have hle : spreadGain amount p.flexible (flexibleRoom b s p.flexible) key ≤ bound - x :=
      spreadGain_le_room hr
    linarith

/-- What a pass over a surplus can do: share it among the goals if any of them has room, and
among the flexible categories otherwise. -/
theorem absorbSurplus_cases (s : Scenario Rat) (h : p.Within b) (hamount : 0 < amount) :
    ((goalRoom b p.goals).entries ≠ [] ∧ absorbSurplus b s amount p =
      ({ p with goals := (spread amount p.goals (goalRoom b p.goals)).1 },
        (spread amount p.goals (goalRoom b p.goals)).2)) ∨
    ((goalRoom b p.goals).entries = [] ∧ absorbSurplus b s amount p =
      ({ p with flexible := (spread amount p.flexible (flexibleRoom b s p.flexible)).1 },
        (spread amount p.flexible (flexibleRoom b s p.flexible)).2)) := by
  unfold absorbSurplus
  by_cases hempty : (goalRoom b p.goals).entries = []
  · right
    refine ⟨hempty, ?_⟩
    rw [spread_of_isEmpty hempty]
    exact if_neg (lt_irrefl 0)
  · left
    exact ⟨hempty, if_pos ((sharable_goals h hamount).spread_pos hempty)⟩

/-- A pass over a surplus keeps all amounts within bounds. -/
theorem within_absorbSurplus (h : p.Within b) (hamount : 0 < amount) :
    (absorbSurplus b s amount p).1.Within b := by
  rcases absorbSurplus_cases s h hamount with ⟨_, heq⟩ | ⟨_, heq⟩
  · rw [heq]
    exact within_goals_spread h hamount
  · rw [heq]
    exact within_flexible_spread h hamount

/-- The totals grow by what has moved. -/
theorem absorbSurplus_balance (h : p.Within b) (hamount : 0 < amount) :
    (absorbSurplus b s amount p).1.flexible.values.sum +
        (absorbSurplus b s amount p).1.goals.values.sum =
      p.flexible.values.sum + p.goals.values.sum + (absorbSurplus b s amount p).2 := by
  rcases absorbSurplus_cases s h hamount with ⟨_, heq⟩ | ⟨_, heq⟩
  · rw [heq]
    dsimp only
    rw [sum_values_spread keys_goalRoom_subset]
    ring
  · rw [heq]
    dsimp only
    rw [sum_values_spread keys_flexibleRoom_subset]
    ring

/-- No more moves than the surplus. -/
theorem absorbSurplus_le (h : p.Within b) (hamount : 0 < amount) :
    (absorbSurplus b s amount p).2 ≤ amount := by
  rcases absorbSurplus_cases s h hamount with ⟨_, heq⟩ | ⟨_, heq⟩
  · rw [heq]
    exact spread_le hamount.le
  · rw [heq]
    exact spread_le hamount.le

/-- No goal loses anything when a surplus is shared. -/
theorem absorbSurplus_goal_ge (h : p.Within b) (hamount : 0 < amount)
    (hx : p.goals.get? key = some x) :
    ∃ y, (absorbSurplus b s amount p).1.goals.get? key = some y ∧ x ≤ y := by
  rcases absorbSurplus_cases s h hamount with ⟨_, heq⟩ | ⟨_, heq⟩
  · rw [heq]
    refine ⟨_, get?_spread.trans (congrArg _ hx), ?_⟩
    exact le_add_of_nonneg_right ((sharable_goals h hamount).spreadGain_nonneg key)
  · rw [heq]
    exact ⟨x, hx, le_refl x⟩

/-- No flexible category loses anything when a surplus is shared. -/
theorem absorbSurplus_flexible_ge (h : p.Within b) (hamount : 0 < amount)
    (hx : p.flexible.get? key = some x) :
    ∃ y, (absorbSurplus b s amount p).1.flexible.get? key = some y ∧ x ≤ y := by
  rcases absorbSurplus_cases s h hamount with ⟨_, heq⟩ | ⟨_, heq⟩
  · rw [heq]
    exact ⟨x, hx, le_refl x⟩
  · rw [heq]
    refine ⟨_, get?_spread.trans (congrArg _ hx), ?_⟩
    exact le_add_of_nonneg_right ((sharable_flexible h hamount).spreadGain_nonneg key)

/-! ## A deficit trimmed -/

/-- Trimming a deficit keeps all amounts within bounds. -/
theorem within_of_recovered {p' : Pools Rat} {trimmed : Rat} (h : p.Within b)
    (hrec : Recovered b amount p p' trimmed) : p'.Within b := by
  refine ⟨hrec.goals_keys.trans h.goals_keys, hrec.flexible_keys.trans h.flexible_keys, ?_, ?_⟩
  · intro key y g hy hg
    obtain ⟨x, hx⟩ := Ledger.mem_keys_iff.mp (hrec.goals_keys ▸ Ledger.mem_keys_of_get? hy)
    have hbetween := hrec.goals_between key x y hx hy
    exact ⟨hbetween.1, hbetween.2.trans (h.goals_admit key x g hx hg).2⟩
  · intro key y c hy hc
    obtain ⟨x, hx⟩ := Ledger.mem_keys_iff.mp (hrec.flexible_keys ▸ Ledger.mem_keys_of_get? hy)
    have hadmits : c.Admits x := h.flexible_admit key x c hx hc
    have hbetween := hrec.flexible_between key x y hx hy
    rw [minimumFloors_getD hc, min_eq_right hadmits.1] at hbetween
    exact ⟨hbetween.1, fun hmax => hbetween.2.trans (hadmits.2 hmax)⟩

/-- No pass takes an amount out of its bounds. -/
theorem within_normalize (committed : Rat) (passes : Nat) (h : p.Within b) :
    (normalize b s committed passes p).Within b := by
  induction passes generalizing p with
  | zero => exact h
  | succ passes ih =>
    unfold normalize
    dsimp only
    rw [magnitude_eq_abs]
    split
    next => exact h
    next hmissing =>
      split
      next hpos =>
        split
        next => exact within_absorbSurplus h hpos
        next => exact ih (within_absorbSurplus h hpos)
      next hneg =>
        -- What recovers a deficit never cuts below zero, nor a category below its minimum.
        have hrec := within_of_recovered h (recovered_recoverDeficit (s := s)
          (neg_nonneg.mpr (not_lt.mp hneg)) h.goals_nonneg)
        split
        next => exact hrec
        next => exact ih hrec

/-- Above their minimums the flexible categories have what is not their minimums. -/
theorem excessOver_minimumFloors (h : p.Within b) :
    excessOver (minimumFloors b) p.flexible =
      p.flexible.values.sum - (b.flexible.map fun _ c => c.minimum).values.sum := by
  have hminimums : (p.flexible.map fun key _ => (minimumFloors b).getD key 0).values.sum =
      (b.flexible.map fun _ c => c.minimum).values.sum := by
    have hkeys : p.flexible.keys.Perm (minimumFloors b).keys := by
      rw [h.flexible_keys, minimumFloors, Ledger.keys_map]
      exact Ledger.keys_sorted_perm
    have hvalues := Ledger.sum_getD_keys hkeys
    rw [Ledger.keys, List.map_map] at hvalues
    rw [Ledger.values_map]
    exact hvalues
  rw [← hminimums, eq_sub_iff_add_eq, excessOver, Ledger.values_map, Ledger.values_map,
    ← List.sum_map_add]
  refine congrArg List.sum (List.map_congr_left fun e he => ?_)
  obtain ⟨c, hc, hadmits⟩ := h.category_of_get? (Ledger.get?_of_mem he)
  rw [minimumFloors_getD hc, max_eq_right (sub_nonneg.mpr hadmits.1), sub_add_cancel]

/-- Above their targets the goals have at least what they exceed all targets by. -/
theorem sub_le_excessOver_targetFloors (h : p.Within b) :
    p.goals.values.sum - (b.goals.map fun _ g => g.target s.goalFactor).values.sum ≤
      excessOver (targetFloors b s) p.goals := by
  have hkeys : p.goals.keys.Perm (targetFloors b s).keys := by
    rw [h.goals_keys, targetFloors, Ledger.keys_map]
    exact Ledger.keys_sorted_perm
  have htargets := Ledger.sum_getD_keys hkeys
  rw [Ledger.keys, List.map_map] at htargets
  rw [← targetFloors, ← htargets, sub_le_iff_le_add, excessOver, Ledger.values_map,
    ← List.sum_map_add, Ledger.values]
  refine List.sum_le_sum fun e _ => ?_
  have hpart := le_max_right 0 (e.2 - (targetFloors b s).getD e.1 0)
  rw [Function.comp_apply]
  linarith

end GoalBudget
