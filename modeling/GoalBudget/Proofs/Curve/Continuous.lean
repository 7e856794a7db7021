import Mathlib.Analysis.Normed.Field.Lemmas
import GoalBudget.Proofs.Curve.Chain

/-!
# Where satisfaction does not jump

A line has no jump, and neither has a chain that rises (`Rises.continuous`). Where there is no jump
the satisfaction is what it is on either side (`eq_of_continuousAt`).

This is for the lines of a cut curve. At an amount that two lines cover they may disagree, and then
the satisfaction is that of the upper one; the lemmas here say that this happens at a jump of the
curve and nowhere else.
-/

namespace GoalBudget

open Filter Topology

/-- Without a jump there is no other satisfaction at an amount than on one side of it. -/
theorem eq_of_continuousAt {f : Rat → Rat} {a level : Rat} {side : Set Rat} [NeBot (𝓝[side] a)]
    (h : ContinuousAt f a) (hside : ∀ x ∈ side, f x = level) : f a = level := by
  have hlimit : Tendsto f (𝓝[side] a) (𝓝 (f a)) := h.tendsto.mono_left nhdsWithin_le_nhds
  have hlevel : Tendsto f (𝓝[side] a) (𝓝 level) :=
    tendsto_const_nhds.congr' (eventually_nhdsWithin_of_forall fun x hx => (hside x hx).symm)
  exact tendsto_nhds_unique hlimit hlevel

namespace Segment

/-- A line does not jump. -/
theorem continuous_lineAt (s : Segment Rat) : Continuous s.lineAt := by
  show Continuous fun x => s.slope * x + s.intercept
  fun_prop

/-- A line held between zero and its cap does not jump either. -/
theorem continuous_valueAt (s : Segment Rat) : Continuous s.valueAt := by
  have hvalue : s.valueAt = fun x => min (max (s.lineAt x) 0) s.cap := funext s.valueAt_eq
  have hline := s.continuous_lineAt
  rw [hvalue]
  fun_prop

/-- What a line is worth at least behind an amount, it is worth there. -/
theorem le_lineAt_of_forall_gt {s : Segment Rat} {a b level : Rat} (hab : a < b)
    (h : ∀ x, a < x → x < b → level ≤ s.lineAt x) : level ≤ s.lineAt a := by
  have hlimit : Tendsto s.lineAt (𝓝[>] a) (𝓝 (s.lineAt a)) :=
    s.continuous_lineAt.continuousAt.tendsto.mono_left nhdsWithin_le_nhds
  refine ge_of_tendsto hlimit ?_
  filter_upwards [Ioo_mem_nhdsGT hab] with x hx
  exact h x hx.1 hx.2

end Segment

open Segment Curve

namespace Rises

variable {x m y top z : Rat} {segments : List (Segment Rat)}

/-- From the end of the first line on, the satisfaction is that along the others. -/
theorem chainDegree_rest {s : Segment Rat} {rest : List (Segment Rat)}
    (h : Rises x m (s :: rest) y top) (hm : 0 ≤ m) (hz : s.upper ≤ z) :
    chainDegree m (s :: rest) z = chainDegree s.cap rest z := by
  have hcap := hm.trans h.le_cap
  have hlower := h.lower_le_upper s (List.mem_cons_self ..)
  rcases hz.eq_or_lt with rfl | hlt
  · have hcovers : s.Covers s.upper := ⟨hlower, le_refl _⟩
    rw [chainDegree_of_covers hcovers, h.valueAt_head hm hcovers]
    cases h with
    | cons _ _ _ _ hend hrest => rw [hend, hrest.chainDegree_start hcap]
  · exact chainDegree_of_gt hlower hlt

/-- A chain that rises does not jump: by induction on the lines, the first one runs from the
satisfaction before it to the one that the others start from. -/
theorem continuous (h : Rises x m segments y top) (hm : 0 ≤ m) :
    Continuous (chainDegree m segments) := by
  induction h with
  | nil => exact continuous_const
  | @cons x m y top s rest hlower horder hslope hstart hend hrest ih =>
    have hchain := Rises.cons hlower horder hslope hstart hend hrest
    -- From the start of the first segment on: its line, then the rest, equal where they meet.
    have hfrom : Continuous fun z =>
        if z ≤ s.upper then s.valueAt z else chainDegree s.cap rest z := by
      refine s.continuous_valueAt.if_le (ih (hm.trans hchain.le_cap)) continuous_id
        continuous_const ?_
      intro z hz
      have hrests := hchain.chainDegree_rest hm (ge_of_eq hz)
      rw [← hrests, chainDegree, if_neg (not_lt.mpr ((hlower ▸ horder).trans (ge_of_eq hz))),
        if_pos (le_of_eq hz)]
    -- In front of it: the level held so far, equal to the line at its start.
    have hwhole : chainDegree m (s :: rest) = fun z =>
        if s.lower ≤ z then (if z ≤ s.upper then s.valueAt z else chainDegree s.cap rest z)
        else m := by
      funext z
      rw [chainDegree]
      by_cases hz : s.lower ≤ z
      · rw [if_neg (not_lt.mpr hz), if_pos hz]
      · rw [if_pos (not_le.mp hz), if_neg hz]
    rw [hwhole]
    refine hfrom.if_le continuous_const continuous_const continuous_id ?_
    intro z hz
    have hzx : z = x := hz.symm.trans hlower
    have hstartz := hchain.chainDegree_start hm
    rw [← hzx, chainDegree, if_neg (not_lt.mpr (le_of_eq hz))] at hstartz
    exact hstartz

end Rises

end GoalBudget
