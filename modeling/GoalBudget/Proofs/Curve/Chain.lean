import GoalBudget.Curve.Degree
import GoalBudget.Proofs.Fault.Success
import GoalBudget.Proofs.Number.Exact

/-!
# Rising chains of lines

A chain rises when each line starts where the one before ends, at the satisfaction reached there,
and none falls (`Rises`). Then the satisfaction along the chain is the value of whichever line
covers the amount (`Rises.lineAt_eq`): two lines meet in one point only and agree there, and being
held between zero and the cap changes nothing.

`Rises` is indexed by where the chain stands before and after, as amounts and satisfactions, and its
constructors follow the list. So every fact about a chain is an induction over the list with the
start generalized: the range of its lines, its caps, and what it is in front of and behind them.

Chains through anchors rise when the anchors advance. Anchors that do not advance are harmless at
the start, where they only raise the satisfaction to start from (`Rises.through`). Further on they
leave a jump; chains of that kind are dealt with in the module on where satisfaction does not fall.
-/

namespace GoalBudget

namespace Segment

/-- The line of a segment, not held between zero and the cap. -/
def lineAt (s : Segment Rat) (x : Rat) : Rat := s.slope * x + s.intercept

/-- Whether an amount is in the range of a segment. -/
def Covers (s : Segment Rat) (x : Rat) : Prop := s.lower ≤ x ∧ x ≤ s.upper

/-- A line with no negative slope does not fall. -/
theorem lineAt_mono {s : Segment Rat} (h : 0 ≤ s.slope) {x y : Rat} (hxy : x ≤ y) :
    s.lineAt x ≤ s.lineAt y :=
  add_le_add_left (mul_le_mul_of_nonneg_left hxy h) _

theorem valueAt_eq (s : Segment Rat) (x : Rat) :
    s.valueAt x = min (max (s.lineAt x) 0) s.cap := by
  rw [valueAt, least_eq_min, greatest_eq_max, lineAt]

/-- Between zero and the cap the value is that of the line. -/
theorem valueAt_eq_lineAt {s : Segment Rat} {x : Rat} (h : 0 ≤ s.lineAt x)
    (hcap : s.lineAt x ≤ s.cap) : s.valueAt x = s.lineAt x := by
  rw [valueAt_eq, max_eq_left h, min_eq_left hcap]

/-- A level line is at its value everywhere. -/
theorem lineAt_level (lower upper value x : Rat) : (level lower upper value).lineAt x = value := by
  show 0 * x + value = value
  ring

theorem valueAt_level {value : Rat} (h : 0 ≤ value) (lower upper x : Rat) :
    (level lower upper value).valueAt x = value := by
  rw [valueAt_eq, lineAt_level, max_eq_left h]
  exact min_self value

section
variable {xa ma xb mb : Rat}

/-- The line between two anchors goes through the first. -/
theorem lineAt_between_lower : (between xa ma xb mb).lineAt xa = ma := by
  show (between xa ma xb mb).slope * xa + (ma - (between xa ma xb mb).slope * xa) = ma
  ring

theorem lineAt_between_upper (h : xa < xb) : (between xa ma xb mb).lineAt xb = mb := by
  have hne : xb - xa ≠ 0 := sub_ne_zero.mpr (ne_of_gt h)
  have hbeq : (xb == xa) = false := beq_eq_false_iff_ne.mpr (ne_of_gt h)
  have hslope : (between xa ma xb mb).slope = (mb - ma) / (xb - xa) := by
    simp only [between, hbeq, Bool.false_eq_true, if_false]
  show (between xa ma xb mb).slope * xb + (ma - (between xa ma xb mb).slope * xa) = mb
  rw [hslope]
  field_simp
  ring

/-- It does not fall if the satisfaction of the anchors does not. -/
theorem slope_between_nonneg (h : xa < xb) (hm : ma ≤ mb) : 0 ≤ (between xa ma xb mb).slope := by
  have hbeq : (xb == xa) = false := beq_eq_false_iff_ne.mpr (ne_of_gt h)
  have hslope : (between xa ma xb mb).slope = (mb - ma) / (xb - xa) := by
    simp only [between, hbeq, Bool.false_eq_true, if_false]
  rw [hslope]
  exact div_nonneg (sub_nonneg.mpr hm) (le_of_lt (sub_pos.mpr h))

end

end Segment

open Segment Curve

namespace Curve

/-! ## Satisfaction along lines -/

section
variable {s : Segment Rat} {rest segments : List (Segment Rat)} {r x top : Rat}

/-- In front of a line counts what was reached before it. -/
theorem chainDegree_of_lt (h : x < s.lower) : chainDegree r (s :: rest) x = r := by
  rw [chainDegree, if_pos h]

/-- The first line that contains an amount decides. -/
theorem chainDegree_of_covers (h : s.Covers x) : chainDegree r (s :: rest) x = s.valueAt x := by
  rw [chainDegree, if_neg (not_lt.mpr h.1), if_pos h.2]

/-- Behind a line the rest decides, and the cap is what was reached. -/
theorem chainDegree_of_gt (horder : s.lower ≤ s.upper) (h : s.upper < x) :
    chainDegree r (s :: rest) x = chainDegree s.cap rest x := by
  rw [chainDegree, if_neg (not_lt.mpr (horder.trans h.le)), if_neg (not_le.mpr h)]

theorem chainDegree_nonneg (hr : 0 ≤ r) (hcaps : ∀ s ∈ segments, 0 ≤ s.cap) :
    0 ≤ chainDegree r segments x := by
  induction segments generalizing r with
  | nil => exact hr
  | cons s rest ih =>
    obtain ⟨hcap, hrest⟩ := List.forall_mem_cons.mp hcaps
    rw [chainDegree]
    split
    next => exact hr
    next =>
      split
      next =>
        rw [Segment.valueAt_eq]
        exact le_min (le_max_right _ _) hcap
      next => exact ih hcap hrest

/-- No satisfaction is above all caps. -/
theorem chainDegree_le (hr : r ≤ top) (hcaps : ∀ s ∈ segments, s.cap ≤ top) :
    chainDegree r segments x ≤ top := by
  induction segments generalizing r with
  | nil => exact hr
  | cons s rest ih =>
    obtain ⟨hcap, hrest⟩ := List.forall_mem_cons.mp hcaps
    rw [chainDegree]
    split
    next => exact hr
    next =>
      split
      next =>
        rw [Segment.valueAt_eq]
        exact (min_le_right _ _).trans hcap
      next => exact ih hcap hrest

end

end Curve

/-- A chain of lines that rises from the satisfaction `m` at `x` to `top` at `y`. -/
inductive Rises : Rat → Rat → List (Segment Rat) → Rat → Rat → Prop where
  | nil (x m : Rat) : Rises x m [] x m
  | cons {x m y top : Rat} {s : Segment Rat} {rest : List (Segment Rat)} (hlower : s.lower = x)
      (horder : x ≤ s.upper) (hslope : 0 ≤ s.slope) (hstart : s.lineAt x = m)
      (hend : s.lineAt s.upper = s.cap) (hrest : Rises s.upper s.cap rest y top) :
      Rises x m (s :: rest) y top

namespace Rises

variable {x m y top z r : Rat} {segments : List (Segment Rat)}

/-- A chain that rises does not end before it starts. -/
theorem le (h : Rises x m segments y top) : x ≤ y := by
  induction h with
  | nil => exact le_refl _
  | cons _ horder _ _ _ _ ih => exact le_trans horder ih

theorem mem_between (h : Rises x m segments y top) :
    ∀ s ∈ segments, x ≤ s.lower ∧ s.upper ≤ y := by
  induction h with
  | nil =>
    intro s hs
    cases hs
  | cons hlower horder _ _ _ hrest ih =>
    intro s hs
    rcases List.mem_cons.mp hs with rfl | hs
    · exact ⟨le_of_eq hlower.symm, hrest.le⟩
    · exact ⟨le_trans horder (ih s hs).1, (ih s hs).2⟩

theorem lower_le_upper (h : Rises x m segments y top) : ∀ s ∈ segments, s.lower ≤ s.upper := by
  induction h with
  | nil =>
    intro s hs
    cases hs
  | cons hlower horder _ _ _ _ ih =>
    intro s hs
    rcases List.mem_cons.mp hs with rfl | hs
    · exact hlower.le.trans horder
    · exact ih s hs

/-- The last line ends where the chain does, at the satisfaction reached. -/
theorem getLast? (h : Rises x m segments y top) (hne : segments ≠ []) :
    ∃ s, segments.getLast? = some s ∧ s.upper = y ∧ s.cap = top ∧ s.Covers y ∧
      s.lineAt y = top := by
  induction h with
  | nil => exact absurd rfl hne
  | @cons _ _ y top s rest hlower horder _ _ hend hrest ih =>
    cases rest with
    | nil =>
      cases hrest
      exact ⟨s, rfl, rfl, rfl, ⟨by rwa [hlower], le_refl _⟩, hend⟩
    | cons s' rest' =>
      obtain ⟨last, hlast, hfacts⟩ := ih (List.cons_ne_nil _ _)
      exact ⟨last, by rw [List.getLast?_cons_cons]; exact hlast, hfacts⟩

/-- The lines leave no gap. -/
theorem exists_covers (h : Rises x m segments y top) (hne : segments ≠ []) (hx : x ≤ z)
    (hy : z ≤ y) : ∃ s ∈ segments, s.Covers z := by
  induction h with
  | nil => exact absurd rfl hne
  | @cons _ _ y top s rest hlower _ _ _ _ hrest ih =>
    by_cases hz : z ≤ s.upper
    · exact ⟨s, List.mem_cons_self .., by rwa [hlower], hz⟩
    · have hz := le_of_lt (not_le.mp hz)
      by_cases hempty : rest = []
      · subst hempty
        cases hrest
        exact ⟨s, List.mem_cons_self .., by rwa [hlower], hy⟩
      · obtain ⟨s', hs', hcovers⟩ := ih hempty hz hy
        exact ⟨s', List.mem_cons_of_mem _ hs', hcovers⟩

/-! ## Satisfaction along the chain -/

/-- On its range a line runs from the satisfaction at its start to its cap. -/
theorem head_bounds {s : Segment Rat} {rest : List (Segment Rat)}
    (h : Rises x m (s :: rest) y top) (hz : s.Covers z) : m ≤ s.lineAt z ∧ s.lineAt z ≤ s.cap := by
  cases h with
  | cons hlower _ hslope hstart hend _ =>
    constructor
    · rw [← hstart]
      exact lineAt_mono hslope (hlower ▸ hz.1)
    · rw [← hend]
      exact lineAt_mono hslope hz.2

/-- On the first line nothing is cut off at zero or at the cap. -/
theorem valueAt_head {s : Segment Rat} {rest : List (Segment Rat)}
    (h : Rises x m (s :: rest) y top) (hm : 0 ≤ m) (hz : s.Covers z) :
    s.valueAt z = s.lineAt z := by
  obtain ⟨hle, hcap⟩ := h.head_bounds hz
  exact valueAt_eq_lineAt (le_trans hm hle) hcap

theorem le_cap {s : Segment Rat} {rest : List (Segment Rat)} (h : Rises x m (s :: rest) y top) :
    m ≤ s.cap := by
  cases h with
  | cons hlower horder hslope hstart hend hrest =>
    rw [← hstart, ← hend]
    exact lineAt_mono hslope horder

/-- Where the chain starts it has the satisfaction that it starts from. -/
theorem chainDegree_start (h : Rises x m segments y top) (hm : 0 ≤ m) :
    chainDegree m segments x = m := by
  cases h with
  | nil => rfl
  | @cons _ _ _ _ s rest hlower horder hslope hstart hend hrest =>
    have hcovers : s.Covers x := ⟨le_of_eq hlower, horder⟩
    have hvalue := (Rises.cons hlower horder hslope hstart hend hrest).valueAt_head hm hcovers
    rw [chainDegree_of_covers hcovers, hvalue, hstart]

/-- The satisfaction with an amount is the value of any line that covers it. -/
theorem lineAt_eq (h : Rises x m segments y top) (hm : 0 ≤ m) (r : Rat) :
    ∀ s ∈ segments, s.Covers z → s.lineAt z = chainDegree r segments z ∧ s.lineAt z ≤ s.cap := by
  induction h generalizing r with
  | nil =>
    intro s hs
    cases hs
  | @cons x m y top first rest hlower horder hslope hstart hend hrest ih =>
    have hchain := Rises.cons hlower horder hslope hstart hend hrest
    intro s hs hz
    rw [chainDegree]
    rcases List.mem_cons.mp hs with rfl | hs
    · rw [if_neg (not_lt.mpr hz.1), if_pos hz.2, hchain.valueAt_head hm hz]
      exact ⟨rfl, (hchain.head_bounds hz).2⟩
    · obtain ⟨heq, hcap⟩ := ih (le_trans hm hchain.le_cap) first.cap s hs hz
      have hafter : first.upper ≤ z := le_trans (hrest.mem_between s hs).1 hz.1
      rw [if_neg (not_lt.mpr (hlower ▸ le_trans horder hafter))]
      split
      next hbefore =>
        -- the amount where two lines meet: the first one ends where the rest starts
        have hmeet : z = first.upper := le_antisymm hbefore hafter
        rw [hmeet] at heq ⊢
        rw [hrest.chainDegree_start (le_trans hm hchain.le_cap)] at heq
        rw [hchain.valueAt_head hm ⟨by rwa [hlower], le_refl _⟩, hend, heq]
        exact ⟨rfl, by rw [← heq, ← hmeet]; exact hcap⟩
      next => exact ⟨heq, hcap⟩

/-- In front of the chain nothing has been gained. -/
theorem chainDegree_before (h : Rises x m segments y top) (hz : z < x) :
    chainDegree r segments z = r := by
  cases h with
  | nil => rfl
  | cons hlower _ _ _ _ _ => exact chainDegree_of_lt (hlower ▸ hz)

/-- Behind the chain the satisfaction stays at the last cap. -/
theorem chainDegree_after (h : Rises x m segments y top) (hne : segments ≠ []) (hz : y < z)
    (r : Rat) : chainDegree r segments z = top := by
  induction h generalizing r with
  | nil => exact absurd rfl hne
  | @cons x m y top s rest hlower horder _ _ _ hrest ih =>
    have hs : s.upper < z := lt_of_le_of_lt hrest.le hz
    rw [chainDegree_of_gt (hlower ▸ horder) hs]
    by_cases hempty : rest = []
    · subst hempty
      cases hrest
      rfl
    · exact ih hempty hz s.cap

/-- The caps are not negative if the chain does not start below zero. -/
theorem cap_nonneg (h : Rises x m segments y top) (hm : 0 ≤ m) : ∀ s ∈ segments, 0 ≤ s.cap := by
  induction h with
  | nil => exact nofun
  | cons hlower horder hslope hstart hend hrest ih =>
    have hcap := hm.trans (Rises.cons hlower horder hslope hstart hend hrest).le_cap
    exact List.forall_mem_cons.mpr ⟨hcap, ih hcap⟩

end Rises

/-! ## Chains through anchors -/

/-- Chains that start at an anchor, possibly from a higher satisfaction, and rise. -/
def RisesFrom (xa ma : Rat) (rest : List (Rat × Rat)) : Prop :=
  ∃ m, ma ≤ m ∧ Rises xa m (chain xa ma rest).1 (chain xa ma rest).2.1 (chain xa ma rest).2.2

/-- An anchor that does not advance only raises the satisfaction. -/
theorem chain_skip {xa ma xb mb : Rat} {rest : List (Rat × Rat)} (h : xb ≤ xa) :
    chain xa ma ((xb, mb) :: rest) = chain xa (max ma mb) rest := by
  rw [chain, if_pos h, greatest_eq_max]

/-- An anchor that advances makes a line. -/
theorem chain_advance {xa ma xb mb : Rat} {rest : List (Rat × Rat)} (h : xa < xb) :
    chain xa ma ((xb, mb) :: rest) =
      (between xa ma xb mb :: (chain xb mb rest).1, (chain xb mb rest).2) := by
  rw [chain, if_neg (not_le.mpr h)]

/-- An anchor that does not advance raises the satisfaction to start from. -/
theorem RisesFrom.skip {xa ma xb mb : Rat} {rest : List (Rat × Rat)} (hx : xb ≤ xa)
    (h : RisesFrom xa (max ma mb) rest) : RisesFrom xa ma ((xb, mb) :: rest) := by
  obtain ⟨m, hm, hrises⟩ := h
  refine ⟨m, le_trans (le_max_left _ _) hm, ?_⟩
  rwa [chain_skip hx]

/-- Whether one anchor lies behind another and not below it. -/
def Advances (a b : Rat × Rat) : Prop := a.1 < b.1 ∧ a.2 ≤ b.2

/-- Anchors that advance make a rising chain. -/
theorem rises_chain {rest : List (Rat × Rat)} {xa ma : Rat}
    (h : ((xa, ma) :: rest).IsChain Advances) :
    Rises xa ma (chain xa ma rest).1 (chain xa ma rest).2.1 (chain xa ma rest).2.2 := by
  induction rest generalizing xa ma with
  | nil => exact .nil xa ma
  | cons anchor rest ih =>
    obtain ⟨xb, mb⟩ := anchor
    obtain ⟨⟨hx, hm⟩, hrest⟩ := List.isChain_cons_cons.mp h
    rw [chain_advance hx]
    exact .cons rfl (le_of_lt hx) (slope_between_nonneg hx hm) lineAt_between_lower
      (lineAt_between_upper hx) (ih hrest)

/-- Anchors of which each advances make a chain that rises from the first. -/
theorem risesFrom_of_isChain {rest : List (Rat × Rat)} {xa ma : Rat}
    (h : ((xa, ma) :: rest).IsChain Advances) : RisesFrom xa ma rest :=
  ⟨ma, le_refl _, rises_chain h⟩

/-- The lines through anchors rise, also when they are a single step. -/
theorem RisesFrom.through {xa ma : Rat} {rest : List (Rat × Rat)} {segments : List (Segment Rat)}
    (hrises : RisesFrom xa ma rest) (hma : 0 ≤ ma)
    (h : Segment.through ((xa, ma) :: rest) = .ok segments) :
    segments ≠ [] ∧ ∃ m y top, 0 ≤ m ∧ Rises xa m segments y top := by
  obtain ⟨m, hm, hchain⟩ := hrises
  rw [Segment.through] at h
  split at h
  next x' m' hempty =>
    cases h
    -- no anchor advances: the curve is a step at the first one
    have hend : x' = xa ∧ m' = m := by
      rw [hempty] at hchain
      cases hchain
      exact ⟨rfl, rfl⟩
    obtain ⟨rfl, rfl⟩ := hend
    refine ⟨List.cons_ne_nil _ _, m', x', m', le_trans hma hm, ?_⟩
    exact .cons rfl (le_refl _) (le_refl _) (lineAt_level _ _ _ _) (lineAt_level _ _ _ _) (.nil _ _)
  next lines last hne hlines =>
    cases h
    rw [hlines] at hchain
    refine ⟨?_, m, _, _, le_trans hma hm, hchain⟩
    rintro rfl
    exact hne _ _ rfl rfl

end GoalBudget
