import Mathlib.Order.Monotone.Defs
import Mathlib.Order.Interval.Set.Defs
import GoalBudget.Proofs.Curve.Checked
import GoalBudget.Strategy.GoalProgram

/-!
# Profiles of curves

The curves that never fall run from zero before their first line to the cap from the end of their
last line on (`Ascends`). A peak or plateau rises to one up to its end, is one between its peaks and
falls again (`Peaks`). For a chain that climbs this needs that each line reaches further than those
before, so that the end of the last one is on no other line (`Climbs.chainDegree_behind`); lines
through anchors do.

The satisfaction under a line or a peak is a quotient in places. `checkedDegree` evaluates it with
every divisor tested, and never finds a zero (`checkedDegree_eq_ok`).

Main result: `curve_profiles`.
-/

namespace GoalBudget

open Segment Curve

/-- A satisfaction that never falls, from zero in front of `a` to `top` from `b` on. -/
structure Ascends (f : Rat → Rat) (a b top : Rat) : Prop where
  monotone : Monotone f
  nonneg : ∀ x, 0 ≤ f x
  le_top : ∀ x, f x ≤ top
  before : ∀ x, x < a → f x = 0
  behind : ∀ x, b ≤ x → f x = top

/-- A satisfaction that rises from zero to one and falls to zero again. -/
structure Peaks (f : Rat → Rat) (k : Corners Rat) : Prop where
  nonneg : ∀ x, 0 ≤ f x
  le_one : ∀ x, f x ≤ 1
  outside : ∀ x, x < k.lower ∨ k.upper < x → f x = 0
  plateau : ∀ x, k.peakLeft ≤ x → x ≤ k.peakRight → f x = 1
  rises : MonotoneOn f (Set.Iic k.peakRight)
  falls : AntitoneOn f (Set.Ici k.peakLeft)

/-- A satisfaction along lines that ascends from the first one to the last one. -/
def Curve.AscendsAlong (c : Curve Rat) : Prop :=
  ∃ first last, c.segments.head? = some first ∧ c.segments.getLast? = some last ∧
    Ascends c.degree first.lower last.upper c.cap

/-! ## Chains of lines -/

/-- By induction on the lines: an amount at the end of the last line or behind it lies behind all
others. -/
theorem Climbs.chainDegree_behind {r x : Rat} {segments : List (Segment Rat)} {last : Segment Rat}
    (h : Climbs r segments) (hr : 0 ≤ r)
    (hends : segments.Pairwise fun s t => s.upper < t.upper)
    (hlast : segments.getLast? = some last) (hx : last.upper ≤ x) :
    chainDegree r segments x = last.cap := by
  induction h with
  | nil => cases hlast
  | @cons r s rest horder hslope hstart hend hrest ih =>
    have hchain := Climbs.cons horder hslope hstart hend hrest
    obtain ⟨hbehind, hends⟩ := List.pairwise_cons.mp hends
    cases rest with
    | nil =>
      obtain rfl : s = last := Option.some.inj hlast
      rcases hx.eq_or_lt with rfl | hlt
      · have hcovers : s.Covers s.upper := ⟨horder, le_refl _⟩
        rw [chainDegree_of_covers hcovers, (hchain.valueAt_head hr hcovers).1, hend]
      · exact chainDegree_of_gt horder hlt
    | cons t rest =>
      rw [List.getLast?_cons_cons] at hlast
      have hlt : s.upper < x := (hbehind last (List.mem_of_getLast? hlast)).trans_le hx
      rw [chainDegree_of_gt horder hlt]
      exact ih (hr.trans hchain.le_cap) hends hlast

/-- A chain that climbs and threads the amounts rises from zero to its last cap. -/
theorem ascends_of_climbs {a : Rat} {segments : List (Segment Rat)} {last : Segment Rat}
    (h : Climbs 0 segments) (hthreads : Threads a segments)
    (hlast : segments.getLast? = some last) :
    Ascends (chainDegree 0 segments) a last.upper last.cap := by
  have hbehind (x : Rat) (hx : last.upper ≤ x) : chainDegree 0 segments x = last.cap :=
    h.chainDegree_behind (le_refl 0) hthreads.ends hlast hx
  have hmonotone := h.monotone (le_refl 0)
  refine ⟨hmonotone, h.le_chainDegree (le_refl 0), ?_, ?_, hbehind⟩
  · intro x
    rw [← hbehind (max x last.upper) (le_max_right _ _)]
    exact hmonotone (le_max_left _ _)
  · intro x hx
    obtain ⟨first, hfirst, rfl⟩ := hthreads.head
    cases segments with
    | nil => cases hfirst
    | cons s rest =>
      cases hfirst
      exact chainDegree_of_lt hx

/-- The highest satisfaction of a chain that climbs is its last cap. -/
theorem cap_eq_last {c : Curve Rat} {r : Rat} {last : Segment Rat} (h : Climbs r c.segments)
    (hlast : c.segments.getLast? = some last) : c.cap = last.cap := by
  have hcaps := h.cap_le_last hlast
  have hmem := List.mem_of_getLast? hlast
  rw [Curve.cap]
  cases hsegments : c.segments with
  | nil =>
    rw [hsegments] at hlast
    cases hlast
  | cons first rest =>
    rw [hsegments] at hcaps hmem
    exact le_antisymm (largestCap_le_iff.mpr hcaps) (cap_le_largestCap last hmem)

/-- The profile of a chain, as a statement about the curve. -/
theorem ascendsAlong_of_climbs {c : Curve Rat} {a : Rat}
    (hshape : c.shape = .piecewise ∨ c.shape = .sCurve) (h : Climbs 0 c.segments)
    (hthreads : Threads a c.segments) : c.AscendsAlong := by
  obtain ⟨first, hfirst, hlower⟩ := hthreads.head
  have hlast := List.getLast?_eq_some_getLast hthreads.ne_nil
  refine ⟨first, _, hfirst, hlast, ?_⟩
  rw [degree_eq_chainDegree hshape, cap_eq_last h hlast, hlower]
  exact ascends_of_climbs h hthreads hlast

/-! ## The constructors -/

namespace Curve

theorem exists_linear_iff {lower upper : Rat} :
    (∃ c, linear lower upper = .ok c) ↔ lower ≤ upper := by
  constructor
  · rintro ⟨c, hc⟩
    exact (check_eq_ok (by decide) (by decide) hc).2.2.1
  · exact exists_linear

/-- A line rises from zero to one. -/
theorem ascends_linear {c : Curve Rat} {lower upper : Rat} (h : linear lower upper = .ok c) :
    Ascends c.degree lower upper c.cap := by
  obtain ⟨_, hdegree, s, m, hsingle, hm, hrises⟩ := linear_eq_ok h
  obtain ⟨last, hlast, hupper, hcap, _⟩ := hrises.getLast? (List.cons_ne_nil s [])
  cases hrises with
  | cons hlower horder hslope hstart hend hrest =>
    have hclimbs := (Rises.cons hlower horder hslope hstart hend hrest).climbs hm
    have hascends := ascends_of_climbs hclimbs (.single hlower) hlast
    rw [hdegree, hsingle]
    rwa [hupper, hcap] at hascends

/-- A sigmoid never falls, wherever its peaks are. -/
theorem ascendsAlong_sCurve {c : Curve Rat} {lower peakLeft peakRight upper : Rat}
    (hle : lower ≤ upper) (h : sCurve lower peakLeft peakRight upper = .ok c) :
    c.AscendsAlong := by
  obtain ⟨hshape, hlines⟩ := sCurve_eq_ok h
  exact ascendsAlong_of_climbs (.inr hshape) (climbs_sigmoid hle hlines)
    (threads_sigmoid hle hlines)

/-- The profile of a peak or plateau, by its corners. -/
theorem peaks_peakedDegree {k : Corners Rat} (hl : k.lower ≤ k.peakLeft)
    (hm : k.peakLeft ≤ k.peakRight) (hr : k.peakRight ≤ k.upper) : Peaks (peakedDegree k) k := by
  constructor
  case nonneg => exact peakedDegree_nonneg hl hm hr
  case le_one => exact peakedDegree_le_one hl hm hr
  case outside => exact fun x => peakedDegree_outside
  case plateau => exact fun x => peakedDegree_plateau hl hr
  case rises => exact fun x _ y hy hxy => peakedDegree_mono hl hm hr hxy hy
  case falls =>
    intro x hx y hy hxy
    rcases le_or_gt x k.peakRight with hplateau | hbehind
    · rw [peakedDegree_plateau hl hr hx hplateau]
      exact peakedDegree_le_one hl hm hr y
    · exact peakedDegree_anti hl hm hr hbehind.le hxy

/-- The profile of a peak. -/
theorem peaks_triangular {c : Curve Rat} {lower peak upper : Rat}
    (h : triangular lower peak upper = .ok c) : Peaks c.degree ⟨lower, peak, peak, upper⟩ := by
  obtain ⟨rfl, hl, hm, hr⟩ := check_eq_ok (by decide) (by decide) h
  exact peaks_peakedDegree hl hm hr

/-- The profile of a plateau. -/
theorem peaks_trapezoidal {c : Curve Rat} {lower peakLeft peakRight upper : Rat}
    (h : trapezoidal lower peakLeft peakRight upper = .ok c) :
    Peaks c.degree ⟨lower, peakLeft, peakRight, upper⟩ := by
  obtain ⟨rfl, hl, hm, hr⟩ := check_eq_ok (by decide) (by decide) h
  exact peaks_peakedDegree hl hm hr

/-- A chain through anchors of rising satisfaction never falls, wherever the anchors are. -/
theorem ascendsAlong_throughPoints {c : Curve Rat} {points : List (Rat × Rat)}
    (hnonneg : ∀ a ∈ points, 0 ≤ a.2) (hrises : (points.map Prod.snd).Pairwise (· ≤ ·))
    (h : throughPoints points = .ok c) : c.AscendsAlong := by
  obtain ⟨hshape, hthrough⟩ := throughPoints_eq_ok h
  have hclimbs := climbs_through hnonneg hrises hthrough
  cases points with
  | nil => cases hthrough
  | cons first rest => exact ascendsAlong_of_climbs (.inl hshape) hclimbs (threads_through hthrough)

/-! ## Divisors -/

/-- The satisfaction under a peak or plateau, with every divisor tested. -/
def checkedPeak (k : Corners Rat) (x : Rat) : Except (Fault Rat) Rat :=
  if x < k.lower ∨ k.upper < x then .ok 0
  else if x < k.peakLeft then
    if k.peakLeft == k.lower then .ok 1 else quotient (x - k.lower) (k.peakLeft - k.lower)
  else if x ≤ k.peakRight then .ok 1
  else if k.peakRight == k.upper then .ok 1
  else quotient (k.upper - x) (k.upper - k.peakRight)

/-- The satisfaction with an amount, with every divisor tested. -/
def checkedDegree (c : Curve Rat) (x : Rat) : Except (Fault Rat) Rat :=
  match c.shape with
  | .linear =>
    if x < c.corners.lower then .ok 0
    else if c.corners.upper ≤ x then .ok 1
    else quotient (x - c.corners.lower) (c.corners.upper - c.corners.lower)
  | .triangular | .trapezoidal => checkedPeak c.corners x
  | .piecewise | .sCurve => .ok (chainDegree 0 c.segments x)

/-- A division by something other than zero has a result. -/
theorem quotient_of_ne {x y : Rat} (h : y ≠ 0) : quotient x y = .ok (x / y) :=
  if_neg (by simpa using h)

/-- No divisor under a peak or plateau is zero. -/
theorem checkedPeak_eq_ok (k : Corners Rat) (x : Rat) :
    checkedPeak k x = .ok (peakedDegree k x) := by
  rw [checkedPeak, peakedDegree]
  split
  next => rfl
  next =>
    split
    next =>
      split
      next => rfl
      next hne => exact quotient_of_ne (sub_ne_zero.mpr (by simpa using hne))
    next =>
      split
      next => rfl
      next =>
        split
        next => rfl
        next hne => exact quotient_of_ne (sub_ne_zero.mpr (Ne.symm (by simpa using hne)))

/-- No divisor is zero, whatever the corners are. -/
theorem checkedDegree_eq_ok (c : Curve Rat) (x : Rat) : c.checkedDegree x = .ok (c.degree x) := by
  rw [checkedDegree, degree]
  cases c.shape with
  | linear =>
    dsimp only
    rw [risingDegree]
    split
    next => rfl
    next hlower =>
      split
      next => rfl
      next hupper =>
        have hlt := (not_lt.mp hlower).trans_lt (not_le.mp hupper)
        exact quotient_of_ne (sub_ne_zero.mpr hlt.ne')
  | triangular | trapezoidal => exact checkedPeak_eq_ok c.corners x
  | piecewise | sCurve => rfl

/-- Which curves there are and how they run. A line is a curve if it does not end before it starts,
a sigmoid too, wherever its peaks are, and so are lines through anchors whose satisfactions are not
negative and do not fall, in whichever order the amounts are. They all ascend from their first line
to their last one. A triangle or trapezoid that is a curve is a peak. No satisfaction is a quotient
by zero. -/
theorem curve_profiles :
    (∀ lower upper : Rat, (∃ c, linear lower upper = .ok c) ↔ lower ≤ upper) ∧
    (∀ (lower upper : Rat) (c : Curve Rat), linear lower upper = .ok c →
      Ascends c.degree lower upper c.cap) ∧
    (∀ lower peakLeft peakRight upper : Rat, lower ≤ upper →
      ∃ c, sCurve lower peakLeft peakRight upper = .ok c ∧ c.AscendsAlong) ∧
    (∀ points : List (Rat × Rat), points ≠ [] → (∀ a ∈ points, 0 ≤ a.2) →
      (points.map Prod.snd).Pairwise (· ≤ ·) →
      ∃ c, throughPoints points = .ok c ∧ c.AscendsAlong) ∧
    (∀ (lower peak upper : Rat) (c : Curve Rat), triangular lower peak upper = .ok c →
      Peaks c.degree ⟨lower, peak, peak, upper⟩) ∧
    (∀ (lower peakLeft peakRight upper : Rat) (c : Curve Rat),
      trapezoidal lower peakLeft peakRight upper = .ok c →
      Peaks c.degree ⟨lower, peakLeft, peakRight, upper⟩) ∧
    ∀ (c : Curve Rat) (x : Rat), c.checkedDegree x = .ok (c.degree x) ∧
      c.degree? x = .ok (c.degree x) := by
  refine ⟨fun _ _ => exists_linear_iff, fun _ _ _ => ascends_linear, ?_, ?_,
    fun _ _ _ _ => peaks_triangular, fun _ _ _ _ _ => peaks_trapezoidal,
    fun c x => ⟨c.checkedDegree_eq_ok x, c.degree?_eq_ok x⟩⟩
  · intro lower peakLeft peakRight upper hle
    obtain ⟨c, hc⟩ := exists_sCurve lower peakLeft peakRight upper
    exact ⟨c, hc, ascendsAlong_sCurve hle hc⟩
  · intro points hne hnonneg hrises
    obtain ⟨c, hc⟩ := exists_throughPoints_of_pairwise hne hnonneg hrises
    exact ⟨c, hc, ascendsAlong_throughPoints hnonneg hrises hc⟩

/-- A step, a sigmoid whose peaks are the wrong way round, anchors of which two do not advance, a
triangle without a rise and a single point. -/
theorem curve_profiles_coinciding :
    (∃ c : Curve Rat, linear 5 5 = .ok c ∧ Ascends c.degree 5 5 c.cap) ∧
    (∃ c : Curve Rat, sCurve 0 90 20 100 = .ok c ∧ c.AscendsAlong) ∧
    (∃ c : Curve Rat, throughPoints [(10, 0), (5, 1 / 2), (20, 1 / 2), (15, 1), (30, 2)] = .ok c ∧
      c.AscendsAlong) ∧
    (∃ c : Curve Rat, triangular 5 5 9 = .ok c ∧ Peaks c.degree ⟨5, 5, 5, 9⟩) ∧
    ∃ c : Curve Rat, trapezoidal 5 5 5 5 = .ok c ∧ Peaks c.degree ⟨5, 5, 5, 5⟩ := by
  obtain ⟨hlinear, hascends, hsigmoid, hanchors, htriangle, htrapezoid, _⟩ := curve_profiles
  obtain ⟨line, hline⟩ := (hlinear 5 5).mpr (le_refl 5)
  obtain ⟨triangle, htri⟩ := exists_triangular (le_refl (5 : Rat)) (by norm_num : (5 : Rat) ≤ 9)
  obtain ⟨point, hpoint⟩ := exists_trapezoidal (le_refl (5 : Rat)) (le_refl 5) (le_refl 5)
  refine ⟨⟨line, hline, hascends 5 5 line hline⟩, hsigmoid 0 90 20 100 (by norm_num),
    hanchors _ (List.cons_ne_nil _ _) ?_ ?_, ⟨triangle, htri, htriangle 5 5 9 triangle htri⟩,
    ⟨point, hpoint, htrapezoid 5 5 5 5 point hpoint⟩⟩
  · decide +kernel
  · decide +kernel

end Curve

end GoalBudget
