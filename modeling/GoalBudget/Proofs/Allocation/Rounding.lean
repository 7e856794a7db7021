import GoalBudget.Proofs.Allocation.Start
import GoalBudget.Proofs.Deviation.Achieved
import Mathlib.Algebra.Order.Round

/-!
# What rounding does to a proposal

A rounded amount is within half a unit of the proposed one, and pulling it back within bounds that
the proposed amount respects only brings it closer. So the passes start from amounts that are each
within half a unit of what was proposed (`flexible_near`, `goals_near`), and exceed the money by no
more than half a unit for every goal and every flexible category (`sum_start_le`).

Half a unit is `Allocator.halfUnit`, zero where amounts are not rounded, so that results about
rounded amounts cover the others. Only proposals within the bounds of the items are meant; what
rounding does to others is not bounded in this way, since they are pulled back first.
-/

namespace GoalBudget

/-- Half of the unit of rounding; nothing where amounts are not rounded. -/
def Allocator.halfUnit (a : Allocator Rat) : Rat := a.roundingUnit.getD 0 / 2

variable {a : Allocator Rat} {b : Budget Rat} {values flexible goals : Ledger Rat}
  {x y z : Rat} {key : String}

/-! ## One amount -/

/-- Rounding moves an amount by half a unit at most. -/
theorem roundToUnit_near {unit : Option Rat} (hunit : ∀ u ∈ unit, 0 < u)
    (h : roundToUnit x unit = .ok y) : |y - x| ≤ unit.getD 0 / 2 := by
  unfold roundToUnit at h
  cases unit with
  | none =>
    cases h
    rw [sub_self, abs_zero, Option.getD_none, zero_div]
  | some u =>
    have hu : 0 < u := hunit u rfl
    have hzero : (u == 0) = false := beq_eq_false_iff_ne.mpr hu.ne'
    simp only [hzero, isUndefined_rat, isInfinite_rat, Bool.false_eq_true, if_false,
      Except.ok.injEq, floor_eq_floor] at h
    -- Half up is rounding to the nearest.
    have hround : (⌊x / u + 0.5⌋ : Rat) = round (x / u) := by
      rw [round_eq]
      norm_num
    have hscaled : y - x = -(x / u - round (x / u)) * u := by
      rw [← h, hround, neg_mul, sub_mul, div_mul_cancel₀ x hu.ne']
      ring
    rw [hscaled, abs_mul, abs_neg, abs_of_pos hu, Option.getD_some]
    calc |x / u - round (x / u)| * u ≤ 1 / 2 * u :=
          mul_le_mul_of_nonneg_right (abs_sub_round _) hu.le
      _ = u / 2 := by ring

/-- An amount moved towards another one is not farther from it. -/
theorem abs_sub_le_of_between (hlow : min y x ≤ z) (hhigh : z ≤ max y x) : |z - x| ≤ |y - x| := by
  rcases le_total y x with hle | hle
  · rw [min_eq_left hle] at hlow
    rw [max_eq_right hle] at hhigh
    rw [abs_of_nonpos (sub_nonpos.mpr hhigh), abs_of_nonpos (sub_nonpos.mpr hle)]
    linarith
  · rw [min_eq_right hle] at hlow
    rw [max_eq_left hle] at hhigh
    rw [abs_of_nonneg (sub_nonneg.mpr hlow), abs_of_nonneg (sub_nonneg.mpr hle)]
    linarith

/-- Pulling back to the bounds of a category only brings closer. -/
theorem Category.clamp_near {c : Category Rat} (hx : c.Admits x) (y : Rat) :
    |c.clamp y - x| ≤ |y - x| := by
  have hraised : max y c.minimum ≤ max y x := max_le_max_left y hx.1
  unfold Category.clamp
  simp only [greatest_eq_max, least_eq_min]
  split
  next hmax =>
    refine abs_sub_le_of_between ?_ ((min_le_left _ _).trans hraised)
    exact le_min ((min_le_left _ _).trans (le_max_left _ _)) ((min_le_right _ _).trans (hx.2 hmax))
  next => exact abs_sub_le_of_between ((min_le_left _ _).trans (le_max_left _ _)) hraised

theorem Goal.least_near {g : Goal Rat} (hx : g.Admits x) (y : Rat) :
    |min y g.remainingAmount - x| ≤ |y - x| :=
  abs_sub_le_of_between (min_le_min_left y hx.2) ((min_le_left _ _).trans (le_max_left _ _))

/-! ## All amounts -/

section
variable (hunit : ∀ u ∈ a.roundingUnit, 0 < u)
include hunit

/-- Flexible categories start within half a unit of what was proposed. -/
theorem flexible_near (h : a.flexibleAmounts b values = .ok flexible)
    (hbounds : ∀ key c, b.flexible.get? key = some c → c.Admits (values.getD key 0))
    (hx : flexible.get? key = some x) : |x - values.getD key 0| ≤ a.halfUnit := by
  obtain ⟨hkeys, hentries⟩ := mapEntries_eq_ok h
  obtain ⟨c, hc⟩ := Ledger.mem_keys_iff.mp (hkeys ▸ Ledger.mem_keys_of_get? hx)
  obtain ⟨rounded, hrounded, hclamp⟩ := bind_eq_ok.mp (hentries key c x hc hx)
  rw [← pure_eq_ok.mp hclamp]
  exact (Category.clamp_near (hbounds key c (Ledger.get?_sorted.symm.trans hc)) rounded).trans
    (roundToUnit_near hunit hrounded)

/-- Goals start within half a unit of what was proposed. -/
theorem goals_near (h : a.goalAmounts b values = .ok goals)
    (hbounds : ∀ key g, b.goals.get? key = some g → g.Admits (values.getD key 0))
    (hx : goals.get? key = some x) : |x - values.getD key 0| ≤ a.halfUnit := by
  obtain ⟨hkeys, hentries⟩ := mapEntries_eq_ok h
  obtain ⟨g, hg⟩ := Ledger.mem_keys_iff.mp (hkeys ▸ Ledger.mem_keys_of_get? hx)
  obtain ⟨rounded, hrounded, hleast⟩ := bind_eq_ok.mp (hentries key g x hg hx)
  rw [← pure_eq_ok.mp hleast, least_eq_min]
  exact (Goal.least_near (hbounds key g (Ledger.get?_sorted.symm.trans hg)) rounded).trans
    (roundToUnit_near hunit hrounded)

/-- The passes start from amounts that exceed the money by no more than half a unit for each of
them. -/
theorem sum_start_le {s : Scenario Rat} {money : Rat} {r : DeviationResult Rat}
    (hserves : r.Serves b s money)
    (hflexible : a.flexibleAmounts b r.variableValues = .ok flexible)
    (hgoals : a.goalAmounts b r.variableValues = .ok goals) :
    flexible.values.sum + goals.values.sum ≤
      money + (b.goals.size + b.flexible.size) * a.halfUnit := by
  have hflexibleKeys : flexible.keys.Perm b.flexible.keys :=
    (List.Perm.of_eq (mapEntries_eq_ok hflexible).1).trans Ledger.keys_sorted_perm
  have hgoalKeys : goals.keys.Perm b.goals.keys :=
    (List.Perm.of_eq (mapEntries_eq_ok hgoals).1).trans Ledger.keys_sorted_perm
  have hflexibleSum : flexible.values.sum ≤ _ := Ledger.sum_values_le (m := r.variableValues)
    fun key x hx => sub_le_iff_le_add'.mp
      (le_of_abs_le (flexible_near hunit hflexible hserves.flexible_admit hx))
  have hgoalSum : goals.values.sum ≤ _ := Ledger.sum_values_le (m := r.variableValues)
    fun key x hx => sub_le_iff_le_add'.mp
      (le_of_abs_le (goals_near hunit hgoals hserves.goals_admit hx))
  -- the proposed amounts are read under different ids, so together they are no more than all
  have hread := Ledger.sum_getD_le b.nodup_goals_flexible hserves.values_nonneg
  rw [List.map_append, List.sum_append] at hread
  rw [(hflexibleKeys.map _).sum_eq, ← Ledger.length_keys, hflexibleKeys.length_eq,
    Ledger.length_keys] at hflexibleSum
  rw [(hgoalKeys.map _).sum_eq, ← Ledger.length_keys, hgoalKeys.length_eq,
    Ledger.length_keys] at hgoalSum
  have hmoney := hserves.sum_le
  linarith

end

end GoalBudget
