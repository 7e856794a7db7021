import Mathlib.Order.Bounds.Defs
import GoalBudget.Proofs.Curve.Continuous
import GoalBudget.Proofs.Curve.Joined
import GoalBudget.Proofs.Fuzzy.Curves

/-!
# Curves cut from zero to a ceiling

The lines that a curve of a goal is cut into follow one another without a gap from zero, or from
before it, to the ceiling, or beyond it (`joined_decompose`, `head_decompose`, `last_decompose`).
What the lines that cover an amount are worth there is never above the satisfaction, and one of them
is worth just that (`Drawn.isGreatest`). They are all worth that unless the curve jumps at the
amount: the level lines in front and behind start where the curve may jump
(`Drawn.valueAt_eq_of_continuousAt`).

That a satisfaction is the greatest of several lines is what makes the encoding right at an end that
two lines share: either of them may be selected, and making the satisfaction large selects the
better one.

Main result: `Built.cut_covers`.
-/

namespace GoalBudget

open Segment

namespace Curve

variable {c : Curve Rat} {a b ceiling x : Rat}

/-! ## From zero to the ceiling -/

section
variable {first last : Segment Rat} (hfirst : c.pieces.head? = some first)
  (hlast : c.pieces.getLast? = some last)
include hfirst hlast

/-- The level lines start and end where the lines of the curve do. -/
theorem joined_decompose (hjoined : Joined c.pieces) (ceiling : Rat) :
    Joined (c.decompose ceiling) := by
  rw [decompose_eq hfirst hlast]
  refine .append (.append ?_ hjoined ?_) ?_ ?_
  · split
    next => exact .singleton _
    next => exact .nil
  -- The lead-in ends where the first piece starts, the tail starts where the last one ends.
  · intro s hs t ht
    obtain rfl : first = t := Option.some.inj (hfirst.symm.trans ht)
    split at hs
    next => cases hs; rfl
    next => cases hs
  · split
    next => exact .singleton _
    next => exact .nil
  · intro s hs t ht
    rw [List.getLast?_append, hlast] at hs
    obtain rfl : last = s := Option.some.inj hs
    split at ht
    next => cases ht; rfl
    next => cases ht

theorem head_decompose (ceiling : Rat) :
    ∃ s, (c.decompose ceiling).head? = some s ∧ s.lower ≤ 0 := by
  rw [decompose_eq hfirst hlast]
  by_cases hpos : 0 < first.lower
  · rw [if_pos hpos]
    exact ⟨_, rfl, le_refl 0⟩
  · rw [if_neg hpos, List.nil_append, List.head?_append, hfirst]
    exact ⟨first, rfl, not_lt.mp hpos⟩

theorem last_decompose (ceiling : Rat) :
    ∃ s, (c.decompose ceiling).getLast? = some s ∧ ceiling ≤ s.upper := by
  rw [decompose_eq hfirst hlast, List.getLast?_append]
  by_cases hlt : last.upper < ceiling
  · rw [if_pos hlt]
    exact ⟨_, rfl, le_refl ceiling⟩
  · rw [if_neg hlt, List.getLast?_append, hlast]
    exact ⟨last, rfl, not_lt.mp hlt⟩

end

/-! ## The worth of the lines -/

namespace Drawn

/-- The lines that cover an amount are worth the satisfaction at most, and one of them just that. -/
theorem isGreatest (h : c.Drawn a b) (hx : 0 ≤ x) (hceiling : x ≤ ceiling) :
    IsGreatest {v | ∃ s ∈ c.decompose ceiling, s.Covers x ∧ s.valueAt x = v} (c.degree x) := by
  obtain ⟨hbelow, s, hs, hcovers, hline, hcap⟩ := h.traced hx hceiling
  constructor
  · refine ⟨s, hs, hcovers, ?_⟩
    rw [valueAt_eq_lineAt (hline ▸ h.nonneg x) (hline ▸ hcap), hline]
  · rintro v ⟨t, ht, hcovers, rfl⟩
    rw [Segment.valueAt_eq]
    exact (min_le_left _ _).trans (max_le (hbelow t ht hcovers) (h.nonneg x))

/-- Where the curve does not jump, the level lines in front and behind meet it. -/
theorem valueAt_eq_of_continuousAt (h : c.Drawn a b) (hcontinuous : ContinuousAt c.degree x)
    {s : Segment Rat} (hs : s ∈ c.decompose ceiling) (hcovers : s.Covers x) :
    s.valueAt x = c.degree x := by
  obtain ⟨first, hfirst, rfl⟩ := h.head
  obtain ⟨last, hlast, rfl, _, hafter⟩ := h.last
  rcases (mem_decompose hfirst hlast ceiling s).mp hs with ⟨_, rfl⟩ | hs | ⟨_, rfl⟩
  · rw [valueAt_level (le_refl 0)]
    have hbefore : ∀ y ∈ Set.Iio x, c.degree y = 0 := fun y hy =>
      h.before y (lt_of_lt_of_le hy hcovers.2)
    exact (eq_of_continuousAt hcontinuous hbefore).symm
  · obtain ⟨hline, hcap⟩ := h.agrees s hs x hcovers
    rw [valueAt_eq_lineAt (hline ▸ h.nonneg x) (hline ▸ hcap), hline]
  · have hbehind : ∀ y ∈ Set.Ioi x, c.degree y = c.tailLevel last := fun y hy =>
      hafter y (lt_of_le_of_lt hcovers.1 hy)
    have htail := eq_of_continuousAt hcontinuous hbehind
    rw [valueAt_level (htail ▸ h.nonneg x), htail]

end Drawn

/-! ## The curves of goals -/

/-- The lines of a plateau follow one another. -/
theorem joined_peakedPieces {k : Corners Rat} (hm : k.peakLeft ≤ k.peakRight) :
    Joined (peakedPieces k) := by
  rcases hm.eq_or_lt with heq | hlt
  · -- without a plateau the rise ends where the fall starts
    by_cases hl : k.lower < k.peakRight <;> by_cases hr : k.peakRight < k.upper <;>
      simp [Joined, peakedPieces, heq, hl, hr]
  · by_cases hl : k.lower < k.peakLeft <;> by_cases hr : k.peakRight < k.upper <;>
      simp [Joined, peakedPieces, hlt, hl, hr, level]

theorem joined_throughPoints {points : List (Rat × Rat)} (h : throughPoints points = .ok c) :
    Joined c.pieces := by
  obtain ⟨hshape, hthrough⟩ := throughPoints_eq_ok h
  cases points with
  | nil => cases hthrough
  | cons first rest =>
    rw [pieces_eq_segments (.inl hshape)]
    exact (threads_through hthrough).joined

/-- The lines of every curve that goals are given follow one another. -/
theorem Built.joined (h : c.Built) : Joined c.pieces := by
  cases h with
  | linear h =>
    obtain ⟨_, _, s, _, hsingle, _⟩ := linear_eq_ok h
    rw [hsingle]
    exact .singleton s
  | triangular h =>
    obtain ⟨rfl, _, hm, _⟩ := check_eq_ok (by decide) (by decide) h
    exact joined_peakedPieces hm
  | trapezoidal h =>
    obtain ⟨rfl, _, hm, _⟩ := check_eq_ok (by decide) (by decide) h
    exact joined_peakedPieces hm
  | sCurve hrise hsteep hend h =>
    obtain ⟨hshape, hlines⟩ := sCurve_eq_ok h
    rw [pieces_eq_segments (.inr hshape)]
    exact (threads_sigmoid ((hrise.trans hsteep).trans hend).le hlines).joined
  | flexible _ _ h =>
    obtain ⟨c', hthrough, hc⟩ := bind_eq_ok.mp h
    obtain rfl : c' = c := (Prod.mk.inj (pure_eq_ok.mp hc)).1
    exact joined_throughPoints hthrough
  | throughPoints _ _ _ h => exact joined_throughPoints h

/-- Cut from zero to a ceiling, the curve of a goal is covered without a gap, and the satisfaction
with an amount is the greatest worth of the lines that cover it. They are all worth the same unless
the curve jumps there. -/
theorem Built.cut_covers (h : c.Built) (ceiling : Rat) :
    Joined (c.decompose ceiling) ∧
    (∃ first, (c.decompose ceiling).head? = some first ∧ first.lower ≤ 0) ∧
    (∃ last, (c.decompose ceiling).getLast? = some last ∧ ceiling ≤ last.upper) ∧
    ∀ x, 0 ≤ x → x ≤ ceiling →
      IsGreatest {v | ∃ s ∈ c.decompose ceiling, s.Covers x ∧ s.valueAt x = v} (c.degree x) ∧
      (ContinuousAt c.degree x →
        ∀ s ∈ c.decompose ceiling, s.Covers x → s.valueAt x = c.degree x) := by
  obtain ⟨a, b, hdrawn⟩ := h.drawn
  obtain ⟨first, hfirst, _⟩ := hdrawn.head
  obtain ⟨last, hlast, _⟩ := hdrawn.last
  refine ⟨joined_decompose hfirst hlast h.joined ceiling, head_decompose hfirst hlast ceiling,
    last_decompose hfirst hlast ceiling, fun x hx hceiling => ?_⟩
  exact ⟨hdrawn.isGreatest hx hceiling,
    fun hcontinuous s hs hcovers => hdrawn.valueAt_eq_of_continuousAt hcontinuous hs hcovers⟩

/-- With no room between the bounds, flexible spending jumps from no satisfaction to that of the
target. There the level line in front ends and the only line of the curve starts. -/
theorem Built.cut_covers_jump :
    ∃ c complete, flexibleCurve (100 : Rat) 100 (1 / 2) = .ok (c, complete) ∧
      Joined (c.decompose 150) ∧
      (c.decompose 150).map (fun s => (s.lower, s.upper)) = [(0, 100), (100, 120), (120, 150)] ∧
      (c.decompose 150).map (·.valueAt 100) = [0, 2, 2.1] ∧
      IsGreatest {v | ∃ s ∈ c.decompose 150, s.Covers 100 ∧ s.valueAt 100 = v} 2 := by
  have hbounds : (0 : Rat) ≤ 100 ∧ (100 : Rat) ≤ 100 ∨ (100 : Rat) = 0 :=
    .inl ⟨by norm_num, le_refl 100⟩
  have hlevel : (0 : Rat) ≤ 1 / 2 ∧ (1 / 2 : Rat) ≤ 1 := by norm_num
  obtain ⟨⟨c, complete⟩, hc, hreads⟩ := exists_of_toOption_map
    (x := flexibleCurve (100 : Rat) 100 (1 / 2))
    (f := fun made => ((made.1.decompose 150).map (fun s => (s.lower, s.upper)),
      (made.1.decompose 150).map (·.valueAt 100), made.1.degree 100))
    (y := ([(0, 100), (100, 120), (120, 150)], [0, 2, 2.1], 2)) (by decide +kernel)
  simp only [Prod.mk.injEq] at hreads
  obtain ⟨hranges, hworths, hdegree⟩ := hreads
  obtain ⟨hjoined, _, _, hcovers⟩ := Built.cut_covers (.flexible hbounds hlevel hc) 150
  have hgreatest := (hcovers 100 (by norm_num) (by norm_num)).1
  rw [hdegree] at hgreatest
  exact ⟨c, complete, hc, hjoined, hranges, hworths, hgreatest⟩

end Curve

end GoalBudget
