import GoalBudget.Fuzzy.OfBudget
import GoalBudget.Proofs.Curve.Checked
import GoalBudget.Proofs.Curve.Drawn
import Mathlib.Data.List.Chain

/-!
# The curves of goals

The curves that goals are given (`Curve.Built`) are drawn by their lines (`Built.drawn`): cut at any
ceiling, the lines are nowhere above the curve and one of them reaches it. That is what the encoding
needs to know of a curve, and it is the same for all of them.

For the sigmoid and for curves through points the anchors advance, so each line ends where the next
one starts. For flexible spending they do too, or all anchors up to the target stand at the minimum:
then the curve starts with a jump to the satisfaction of the target
(`flexibleTarget_between_or_le`). That is so where the spending level is zero or the bounds are
equal.
-/

namespace GoalBudget

open Segment

namespace Curve

/-- Curves that come from a constructor, with the arguments that callers give it. -/
inductive Built : Curve Rat → Prop where
  | linear {lower upper : Rat} {c : Curve Rat} (h : Curve.linear lower upper = .ok c) : Built c
  | triangular {lower peak upper : Rat} {c : Curve Rat}
      (h : Curve.triangular lower peak upper = .ok c) : Built c
  | trapezoidal {lower peakLeft peakRight upper : Rat} {c : Curve Rat}
      (h : Curve.trapezoidal lower peakLeft peakRight upper = .ok c) : Built c
  | sCurve {lower peakLeft peakRight upper : Rat} {c : Curve Rat} (hrise : lower < peakLeft)
      (hsteep : peakLeft < peakRight) (hend : peakRight < upper)
      (h : Curve.sCurve lower peakLeft peakRight upper = .ok c) : Built c
  | flexible {minimum maximum level complete : Rat} {c : Curve Rat}
      (hbounds : 0 ≤ minimum ∧ minimum ≤ maximum ∨ maximum = 0)
      (hlevel : 0 ≤ level ∧ level ≤ 1)
      (h : flexibleCurve minimum maximum level = .ok (c, complete)) : Built c
  | throughPoints {points : List (Rat × Rat)} {c : Curve Rat}
      (hamounts : (points.map Prod.fst).Pairwise (· < ·))
      (hnonneg : ∀ point ∈ points, 0 ≤ point.2)
      (hmemberships : (points.map Prod.snd).Pairwise (· ≤ ·))
      (h : Curve.throughPoints points = .ok c) : Built c

variable {c : Curve Rat}

/-- A curve whose lines run through anchors that rise is drawn by them. -/
theorem drawn_of_risesFrom {xa ma : Rat} {rest : List (Rat × Rat)} (hrises : RisesFrom xa ma rest)
    (hma : 0 ≤ ma) (hshape : c.shape = .piecewise ∨ c.shape = .sCurve)
    (h : Segment.through ((xa, ma) :: rest) = .ok c.segments) : ∃ a b, c.Drawn a b := by
  obtain ⟨hne, m, y, top, hm, hchain⟩ := hrises.through hma h
  have hpieces := pieces_eq_segments hshape
  have hdegree := degree_eq_chainDegree hshape
  rw [← hpieces] at hne hchain hdegree
  exact ⟨xa, y, drawn_of_rises hchain hne hm hdegree (isMonotone_of_segments hshape)⟩

/-- A curve through rising points is drawn by its lines. -/
theorem drawn_throughPoints {xa ma : Rat} {rest : List (Rat × Rat)}
    (hrises : RisesFrom xa ma rest) (hma : 0 ≤ ma)
    (h : Curve.throughPoints ((xa, ma) :: rest) = .ok c) : ∃ a b, c.Drawn a b := by
  obtain ⟨hshape, hthrough⟩ := throughPoints_eq_ok h
  exact drawn_of_risesFrom hrises hma (Or.inl hshape) hthrough

theorem drawn_sCurve {lower peakLeft peakRight upper : Rat} (hrise : lower < peakLeft)
    (hsteep : peakLeft < peakRight) (hend : peakRight < upper)
    (h : Curve.sCurve lower peakLeft peakRight upper = .ok c) : ∃ a b, c.Drawn a b := by
  obtain ⟨hshape, hsigmoid⟩ := sCurve_eq_ok h
  have hrange : lower < upper := by linarith
  have hleft : steepStart lower peakLeft upper = peakLeft := if_neg (by
    rintro (hle | hle) <;> linarith)
  have hright : steepEnd lower peakLeft peakRight upper = peakRight := if_neg (by
    rintro (hle | hle) <;> linarith)
  rw [sigmoid_eq_through hrange, hleft, hright] at hsigmoid
  have hadvance := isChain_sigmoidAnchors hrise hsteep hend
  obtain ⟨rest, hanchors⟩ := exists_sigmoidAnchors lower peakLeft peakRight upper
  rw [hanchors] at hsigmoid hadvance
  exact drawn_of_risesFrom (risesFrom_of_isChain hadvance) (le_refl 0) (Or.inr hshape)
    hsigmoid

/-! ## Flexible spending -/

/-- The anchors of the curve of flexible spending behind the first one. -/
def flexibleAnchors (minimum maximum level : Rat) : List (Rat × Rat) :=
  let largest := if maximum ≤ 0 then minimum * 3 else maximum
  let target := minimum + (largest - minimum) * level
  flexibleTiers.map (fun t => (minimum + (target - minimum) * t.1, t.2)) ++
    [(least (target * 1.2) (largest * 1.2), 2.1)]

section
variable {minimum maximum level complete : Rat}
  (hbounds : 0 ≤ minimum ∧ minimum ≤ maximum ∨ maximum = 0) (hlevel : 0 ≤ level ∧ level ≤ 1)
include hbounds hlevel

/-- With bounds the right way round the target lies between them. A maximum of zero with a
negative minimum turns them round, and then the target is not above the minimum. -/
theorem flexibleTarget_between_or_le {largest target : Rat}
    (hlargest : (if maximum ≤ 0 then minimum * 3 else maximum) = largest)
    (htarget : minimum + (largest - minimum) * level = target) :
    minimum < target ∧ 0 < target ∧ target ≤ largest ∨ target ≤ minimum := by
  by_cases habove : minimum ≤ largest
  · have hle : (largest - minimum) * level ≤ largest - minimum :=
      mul_le_of_le_one_right (sub_nonneg.mpr habove) hlevel.2
    have hminimum : 0 ≤ minimum := by
      rcases hbounds with hbounds | hzero
      · exact hbounds.1
      · rw [if_pos (le_of_eq hzero)] at hlargest
        linarith
    by_cases hstep : target ≤ minimum
    · exact Or.inr hstep
    · exact Or.inl ⟨by linarith, by linarith, by linarith⟩
  · right
    have hfall := mul_nonpos_of_nonpos_of_nonneg (sub_nonpos.mpr (le_of_not_ge habove)) hlevel.1
    linarith

/-- The anchors of flexible spending rise. -/
theorem risesFrom_flexible : RisesFrom minimum 0 (flexibleAnchors minimum maximum level) := by
  unfold flexibleAnchors
  dsimp only
  generalize hlargest : (if maximum ≤ 0 then minimum * 3 else maximum) = largest
  generalize htarget : minimum + (largest - minimum) * level = target
  have hcases := flexibleTarget_between_or_le hbounds hlevel hlargest htarget
  simp only [flexibleTiers, List.map_cons, List.map_nil, List.cons_append, List.nil_append,
    least_eq_min]
  rcases hcases with ⟨habove, hpos, hle⟩ | hbelow
  · refine risesFrom_of_isChain ?_
    simp only [List.isChain_cons_cons, Advances]
    norm_num
    refine ⟨?_, ?_, ?_, ?_, ?_⟩ <;> linarith
  · -- nothing up to the target advances; only the surplus tier may
    refine .skip ?_ (.skip ?_ (.skip ?_ ?_))
    · linarith
    · linarith
    · linarith
    · by_cases hadvance : minimum < min (target * 1.2) (largest * 1.2)
      · refine risesFrom_of_isChain (List.isChain_cons_cons.mpr ⟨⟨hadvance, ?_⟩, .singleton _⟩)
        norm_num
      · exact .skip (not_lt.mp hadvance) (risesFrom_of_isChain (.singleton _))

/-- The curve of flexible spending is drawn by its lines. -/
theorem drawn_flexible (h : flexibleCurve minimum maximum level = .ok (c, complete)) :
    ∃ a b, c.Drawn a b := by
  obtain ⟨c', hthrough, hc⟩ := bind_eq_ok.mp h
  have hc : c' = c := (Prod.mk.inj (pure_eq_ok.mp hc)).1
  subst hc
  exact drawn_throughPoints (risesFrom_flexible hbounds hlevel) (le_refl 0) hthrough

/-- There is a curve for flexible spending, also for none at all. -/
theorem exists_flexibleCurve :
    ∃ c complete, flexibleCurve minimum maximum level = .ok (c, complete) := by
  obtain ⟨c, hthrough⟩ := exists_throughPoints (risesFrom_flexible hbounds hlevel) (le_refl 0)
  exact ⟨c, _, bind_eq_ok.mpr ⟨c, hthrough, rfl⟩⟩

end

/-- Every curve that goals are given is drawn by its lines. -/
theorem Built.drawn (h : c.Built) : ∃ a b, c.Drawn a b := by
  cases h with
  | linear h => exact ⟨_, _, drawn_linear h⟩
  | triangular h =>
    obtain ⟨rfl, hl, hm, hr⟩ := check_eq_ok (by decide) (by decide) h
    exact ⟨_, _, drawn_peaked (Or.inl rfl) rfl hl hm hr⟩
  | trapezoidal h =>
    obtain ⟨rfl, hl, hm, hr⟩ := check_eq_ok (by decide) (by decide) h
    exact ⟨_, _, drawn_peaked (Or.inr rfl) rfl hl hm hr⟩
  | sCurve hrise hsteep hend h => exact drawn_sCurve hrise hsteep hend h
  | flexible hbounds hlevel h => exact drawn_flexible hbounds hlevel h
  | @throughPoints points _ hamounts hnonneg hmemberships h =>
    cases points with
    | nil => cases h
    | cons first rest =>
      rw [List.pairwise_map] at hamounts hmemberships
      refine drawn_throughPoints (risesFrom_of_isChain ?_) (hnonneg first (List.mem_cons_self ..)) h
      exact (List.Pairwise.and hamounts hmemberships).isChain

end Curve

end GoalBudget
