import Mathlib.Order.Monotone.Basic
import GoalBudget.Proofs.Curve.Drawn
import GoalBudget.Proofs.Curve.Joined

/-!
# Where satisfaction does not fall

A chain of lines climbs when no line falls and each starts no lower than the cap before it
(`Climbs`). Unlike a chain that rises it may jump up where two lines meet, as it does where anchors
that do not advance are skipped. Along such a chain the satisfaction never falls
(`Climbs.monotone`), and the lines through anchors of rising satisfaction climb (`climbs_through`),
among them those of every sigmoid, whether or not its peaks were in place.

A peak or plateau does not fall up to its end and does not rise behind its start. So between an
amount and one with more satisfaction there is none with less (`peakedDegree_le_between`).

Greedy runs need both in one form. They raise a variable by steps of which each is worth something,
and what they have to know is that nothing is lost on the way. On a curve that a constructor makes,
a part of a way to more satisfaction does not lead to less (`Regular.degree_le_of_lt`), and neither
does more money up to the end of the plateau (`Regular.degree_le_of_le_peakRight`). These are the
main results.
-/

namespace GoalBudget

open Segment Curve

/-- A chain of lines that never falls, from a satisfaction reached before it. -/
inductive Climbs : Rat → List (Segment Rat) → Prop where
  | nil (r : Rat) : Climbs r []
  | cons {r : Rat} {s : Segment Rat} {rest : List (Segment Rat)} (horder : s.lower ≤ s.upper)
      (hslope : 0 ≤ s.slope) (hstart : r ≤ s.lineAt s.lower) (hend : s.lineAt s.upper = s.cap)
      (hrest : Climbs s.cap rest) : Climbs r (s :: rest)

namespace Climbs

variable {r x y : Rat} {segments : List (Segment Rat)}

/-- On its range a line of the chain is what the chain is worth. -/
theorem valueAt_head {s : Segment Rat} {rest : List (Segment Rat)} (h : Climbs r (s :: rest))
    (hr : 0 ≤ r) (hx : s.Covers x) :
    s.valueAt x = s.lineAt x ∧ r ≤ s.lineAt x ∧ s.lineAt x ≤ s.cap := by
  cases h with
  | cons _ hslope hstart hend _ =>
    have hlower : r ≤ s.lineAt x := hstart.trans (lineAt_mono hslope hx.1)
    have hupper : s.lineAt x ≤ s.cap := hend ▸ lineAt_mono hslope hx.2
    exact ⟨valueAt_eq_lineAt (hr.trans hlower) hupper, hlower, hupper⟩

theorem le_cap {s : Segment Rat} {rest : List (Segment Rat)} (h : Climbs r (s :: rest)) :
    r ≤ s.cap := by
  cases h with
  | cons horder hslope hstart hend _ =>
    exact hstart.trans (hend ▸ lineAt_mono hslope horder)

/-- No line of a chain that climbs ends before it starts. -/
theorem lower_le_upper (h : Climbs r segments) : ∀ s ∈ segments, s.lower ≤ s.upper := by
  induction h with
  | nil => exact nofun
  | cons horder _ _ _ _ ih => exact List.forall_mem_cons.mpr ⟨horder, ih⟩

/-- No cap is above the last one. -/
theorem cap_le_last {last : Segment Rat} (h : Climbs r segments)
    (hlast : segments.getLast? = some last) : ∀ s ∈ segments, s.cap ≤ last.cap := by
  induction h with
  | nil => exact nofun
  | @cons r s rest horder hslope hstart hend hrest ih =>
    cases rest with
    | nil =>
      cases hlast
      exact List.forall_mem_singleton.mpr (le_refl _)
    | cons t rest =>
      rw [List.getLast?_cons_cons] at hlast
      have hall := ih hlast
      exact List.forall_mem_cons.mpr
        ⟨hrest.le_cap.trans (hall t (List.mem_cons_self ..)), hall⟩

/-- Along the chain the satisfaction is never below what was reached before. -/
theorem le_chainDegree (h : Climbs r segments) (hr : 0 ≤ r) (x : Rat) :
    r ≤ chainDegree r segments x := by
  induction h with
  | nil => exact le_refl _
  | @cons r s rest horder hslope hstart hend hrest ih =>
    have hchain := Climbs.cons horder hslope hstart hend hrest
    rw [chainDegree]
    split
    next => exact le_refl _
    next hlower =>
      split
      next hupper =>
        obtain ⟨hvalue, hle, _⟩ := hchain.valueAt_head hr ⟨not_lt.mp hlower, hupper⟩
        rwa [hvalue]
      next => exact hchain.le_cap.trans (ih (hr.trans hchain.le_cap))

/-- By induction on the lines. Two amounts on one line compare as the line does; otherwise the cap
of the line lies between the two satisfactions. -/
theorem monotone (h : Climbs r segments) (hr : 0 ≤ r) : Monotone (chainDegree r segments) := by
  induction h with
  | nil => exact monotone_const
  | @cons r s rest horder hslope hstart hend hrest ih =>
    have hchain := Climbs.cons horder hslope hstart hend hrest
    have hcap := hr.trans hchain.le_cap
    intro x y hxy
    -- In front of the segment, on it, behind it: the same three places the degree is read at.
    by_cases hx : x < s.lower
    · rw [chainDegree_of_lt hx]
      exact hchain.le_chainDegree hr y
    · have hlower := not_lt.mp hx
      by_cases hy : y ≤ s.upper
      · have hxs : s.Covers x := ⟨hlower, hxy.trans hy⟩
        have hys : s.Covers y := ⟨hlower.trans hxy, hy⟩
        rw [chainDegree_of_covers hxs, chainDegree_of_covers hys, (hchain.valueAt_head hr hxs).1,
          (hchain.valueAt_head hr hys).1]
        exact lineAt_mono hslope hxy
      · rw [chainDegree_of_gt horder (not_le.mp hy)]
        by_cases hupper : x ≤ s.upper
        · obtain ⟨hvalue, _, hle⟩ := hchain.valueAt_head hr ⟨hlower, hupper⟩
          rw [chainDegree_of_covers ⟨hlower, hupper⟩, hvalue]
          exact hle.trans (hrest.le_chainDegree hcap y)
        · rw [chainDegree_of_gt horder (not_le.mp hupper)]
          exact ih hcap hxy

end Climbs

/-- A chain that rises climbs. -/
theorem Rises.climbs {x m y top : Rat} {segments : List (Segment Rat)}
    (h : Rises x m segments y top) {r : Rat} (hr : r ≤ m) : Climbs r segments := by
  induction h generalizing r with
  | nil => exact .nil r
  | cons hlower horder hslope hstart hend _ ih =>
    refine .cons (hlower ▸ horder) hslope ?_ hend (ih (le_refl _))
    rwa [hlower, hstart]

/-! ## Lines through anchors -/

section
variable {rest points : List (Rat × Rat)} {ma r : Rat}

/-- Where satisfactions rise, the first one is not above the second. -/
theorem le_of_pairwise_cons_cons {a b : Rat} {bs : List Rat}
    (h : (a :: b :: bs).Pairwise (· ≤ ·)) : a ≤ b ∧ (b :: bs).Pairwise (· ≤ ·) :=
  ⟨(List.pairwise_cons.mp h).1 b (List.mem_cons_self ..), (List.pairwise_cons.mp h).2⟩

/-- By induction on the anchors. One that does not advance raises the satisfaction to start from,
and the chain jumps up to it. -/
theorem climbs_chain (xa : Rat) (h : (ma :: rest.map Prod.snd).Pairwise (· ≤ ·)) (hr : r ≤ ma) :
    Climbs r (chain xa ma rest).1 ∧ r ≤ (chain xa ma rest).2.2 := by
  induction rest generalizing xa ma r with
  | nil => exact ⟨.nil r, hr⟩
  | cons anchor rest ih =>
    obtain ⟨xb, mb⟩ := anchor
    obtain ⟨hle, hrest⟩ := le_of_pairwise_cons_cons h
    by_cases hx : xb ≤ xa
    · rw [chain_skip hx, max_eq_right hle]
      exact ih xa hrest (hr.trans hle)
    · have hlt := not_le.mp hx
      obtain ⟨hclimbs, hlast⟩ := ih xb hrest (le_refl mb)
      rw [chain_advance hlt]
      refine ⟨.cons hlt.le (slope_between_nonneg hlt hle) ?_ (lineAt_between_upper hlt) hclimbs,
        (hr.trans hle).trans hlast⟩
      exact hr.trans lineAt_between_lower.ge

/-- The lines through anchors climb if the satisfactions of the anchors are not negative and
rise, wherever the anchors are. -/
theorem climbs_through {segments : List (Segment Rat)} (hnonneg : ∀ a ∈ points, 0 ≤ a.2)
    (hrises : (points.map Prod.snd).Pairwise (· ≤ ·))
    (h : Segment.through points = .ok segments) : Climbs 0 segments := by
  cases points with
  | nil => cases h
  | cons first rest =>
    obtain ⟨x, m⟩ := first
    have hm : 0 ≤ m := hnonneg (x, m) (List.mem_cons_self ..)
    obtain ⟨hclimbs, hlast⟩ := climbs_chain x hrises hm
    rw [Segment.through] at h
    split at h
    next xa top hchain =>
      -- no anchor advances: the curve is a step at the first one
      cases h
      rw [hchain] at hlast
      refine .cons (le_refl _) (le_refl _) ?_ (lineAt_level _ _ _ _) (.nil _)
      rwa [lineAt_level]
    next lines last _ hchain =>
      cases h
      rwa [hchain] at hclimbs

/-- A sigmoid climbs wherever its corners are, as long as it does not end before it starts. -/
theorem climbs_sigmoid {lower peakLeft peakRight upper : Rat} {segments : List (Segment Rat)}
    (hle : lower ≤ upper) (h : sigmoid lower peakLeft peakRight upper = .ok segments) :
    Climbs 0 segments := by
  rcases hle.eq_or_lt with rfl | hlt
  · rw [sigmoid, if_pos (le_refl lower)] at h
    cases h
    refine .cons (le_refl lower) (le_refl _) ?_ (lineAt_level _ _ _ _) (.nil _)
    rw [lineAt_level]
    exact zero_le_one
  · rw [sigmoid_eq_through hlt] at h
    obtain ⟨hnonneg, hrises⟩ := levels_sigmoidAnchors lower (steepStart lower peakLeft upper)
      (steepEnd lower (steepStart lower peakLeft upper) peakRight upper) upper
    exact climbs_through hnonneg hrises h

end

namespace Curve

/-! ## Peaks and plateaus -/

section
variable {k : Corners Rat} {x y z : Rat} (hl : k.lower ≤ k.peakLeft)
  (hm : k.peakLeft ≤ k.peakRight) (hr : k.peakRight ≤ k.upper)
include hl hm hr

/-- A peak gives no more than one. -/
theorem peakedDegree_le_one (x : Rat) : peakedDegree k x ≤ 1 := by
  by_cases hout : x < k.lower ∨ k.upper < x
  · rw [peakedDegree_outside hout]
    exact zero_le_one
  · rw [not_or, not_lt, not_lt] at hout
    obtain ⟨s, hs, hcovers⟩ := exists_peakedPieces_covers hout.1 hout.2
    have hcap : s.cap = 1 := by
      rcases mem_peakedPieces.mp hs with ⟨_, rfl⟩ | ⟨_, rfl⟩ | ⟨_, rfl⟩ | ⟨_, _, _, rfl⟩ <;> rfl
    rw [← hcap]
    exact (peakedPieces_agree hl hm hr hs hcovers).2

/-- Up to the end of its plateau the curve does not fall. -/
theorem peakedDegree_mono (hxy : x ≤ y) (hy : y ≤ k.peakRight) :
    peakedDegree k x ≤ peakedDegree k y := by
  by_cases hx : x < k.lower
  · rw [peakedDegree_outside (.inl hx)]
    exact peakedDegree_nonneg hl hm hr y
  · by_cases hpeak : k.peakLeft ≤ y
    · rw [peakedDegree_plateau hl hr hpeak hy]
      exact peakedDegree_le_one hl hm hr x
    · have hlower := not_lt.mp hx
      have hyl := (not_le.mp hpeak).le
      have hlt : k.lower < k.peakLeft := (hlower.trans hxy).trans_lt (not_le.mp hpeak)
      rw [peakedDegree_rise hm hr hlt hlower (hxy.trans hyl),
        peakedDegree_rise hm hr hlt (hlower.trans hxy) hyl]
      exact div_le_div_of_nonneg_right (sub_le_sub_right hxy _) (sub_pos.mpr hlt).le

/-- From the end of its plateau on the curve does not rise. -/
theorem peakedDegree_anti (hx : k.peakRight ≤ x) (hxy : x ≤ y) :
    peakedDegree k y ≤ peakedDegree k x := by
  by_cases hy : k.upper < y
  · rw [peakedDegree_outside (.inr hy)]
    exact peakedDegree_nonneg hl hm hr x
  · have hupper := not_lt.mp hy
    rcases hx.eq_or_lt with heq | hlt
    · rw [← heq, peakedDegree_plateau hl hr hm (le_refl _)]
      exact peakedDegree_le_one hl hm hr y
    · have hwidth : k.peakRight < k.upper := hlt.trans_le (hxy.trans hupper)
      rw [peakedDegree_fall hl hm hwidth (hx.trans hxy) hupper,
        peakedDegree_fall hl hm hwidth hx (hxy.trans hupper)]
      exact div_le_div_of_nonneg_right (sub_le_sub_left hxy _) (sub_pos.mpr hwidth).le

/-- On the way to more satisfaction there is never less. -/
theorem peakedDegree_le_between (hxy : x ≤ y) (hyz : y ≤ z)
    (hlt : peakedDegree k x < peakedDegree k z) : peakedDegree k x ≤ peakedDegree k y := by
  rcases le_or_gt y k.peakRight with hpeak | hbehind
  · exact peakedDegree_mono hl hm hr hxy hpeak
  · exact hlt.le.trans (peakedDegree_anti hl hm hr hbehind.le hyz)

end

/-- Only peaks and plateaus fall again. -/
theorem shape_of_falls {c : Curve Rat} (h : c.isMonotone = false) :
    c.shape = .triangular ∨ c.shape = .trapezoidal := by
  rw [isMonotone] at h
  cases hshape : c.shape with
  | triangular => exact .inl rfl
  | trapezoidal => exact .inr rfl
  | linear | piecewise | sCurve =>
    rw [hshape] at h
    cases h

/-- Where a curve falls, amounts beyond its plateau are of no use. -/
theorem usefulLimit_of_falls {c : Curve Rat} (h : c.isMonotone = false) :
    c.usefulLimit = c.corners.peakRight := by
  rw [usefulLimit]
  rcases shape_of_falls h with hshape | hshape <;> rw [hshape]

/-! ## The curves that the constructors make -/

/-- A curve made by a constructor. A sigmoid does not end before it starts, and the anchors of a
chain have satisfactions that are not negative and rise. -/
inductive Regular : Curve Rat → Prop where
  | linear {lower upper : Rat} {c : Curve Rat} (h : linear lower upper = .ok c) : Regular c
  | triangular {lower peak upper : Rat} {c : Curve Rat}
      (h : triangular lower peak upper = .ok c) : Regular c
  | trapezoidal {lower peakLeft peakRight upper : Rat} {c : Curve Rat}
      (h : trapezoidal lower peakLeft peakRight upper = .ok c) : Regular c
  | sCurve {lower peakLeft peakRight upper : Rat} {c : Curve Rat} (hle : lower ≤ upper)
      (h : sCurve lower peakLeft peakRight upper = .ok c) : Regular c
  | throughPoints {points : List (Rat × Rat)} {c : Curve Rat} (hnonneg : ∀ a ∈ points, 0 ≤ a.2)
      (hrises : (points.map Prod.snd).Pairwise (· ≤ ·)) (h : throughPoints points = .ok c) :
      Regular c

/-- Either the satisfaction never falls, or the curve is a peak or plateau with its corners in
order. -/
theorem Regular.cases {c : Curve Rat} (h : c.Regular) :
    c.isMonotone = true ∧ Monotone c.degree ∨
      c.isMonotone = false ∧ c.degree = peakedDegree c.corners ∧
        c.corners.lower ≤ c.corners.peakLeft ∧ c.corners.peakLeft ≤ c.corners.peakRight ∧
        c.corners.peakRight ≤ c.corners.upper := by
  cases h with
  | linear h =>
    obtain ⟨hmonotone, hdegree, s, m, hsingle, hm, hrises⟩ := linear_eq_ok h
    rw [hdegree, hsingle]
    exact .inl ⟨hmonotone, (hrises.climbs hm).monotone (le_refl 0)⟩
  | triangular h =>
    obtain ⟨rfl, horder⟩ := check_eq_ok (by decide) (by decide) h
    exact .inr ⟨rfl, rfl, horder⟩
  | trapezoidal h =>
    obtain ⟨rfl, horder⟩ := check_eq_ok (by decide) (by decide) h
    exact .inr ⟨rfl, rfl, horder⟩
  | sCurve hle h =>
    obtain ⟨hshape, hlines⟩ := sCurve_eq_ok h
    rw [degree_eq_chainDegree (.inr hshape)]
    exact .inl ⟨isMonotone_of_segments (.inr hshape),
      (climbs_sigmoid hle hlines).monotone (le_refl 0)⟩
  | throughPoints hnonneg hrises h =>
    obtain ⟨hshape, hthrough⟩ := throughPoints_eq_ok h
    rw [degree_eq_chainDegree (.inl hshape)]
    exact .inl ⟨isMonotone_of_segments (.inl hshape),
      (climbs_through hnonneg hrises hthrough).monotone (le_refl 0)⟩

variable {c : Curve Rat} {x y z : Rat}

/-- A part of a way to more satisfaction does not lead to less. -/
theorem Regular.degree_le_of_lt (h : c.Regular) (hxy : x ≤ y) (hyz : y ≤ z)
    (hlt : c.degree x < c.degree z) : c.degree x ≤ c.degree y := by
  rcases h.cases with ⟨_, hmono⟩ | ⟨_, hdegree, hl, hm, hr⟩
  · exact hmono hxy
  · rw [hdegree] at hlt ⊢
    exact peakedDegree_le_between hl hm hr hxy hyz hlt

/-- More does not mean less, and does not up to the end of the plateau where the curve falls
again. -/
theorem Regular.degree_le_of_le_peakRight (h : c.Regular) (hxy : x ≤ y)
    (hy : c.isMonotone = false → y ≤ c.corners.peakRight) : c.degree x ≤ c.degree y := by
  rcases h.cases with ⟨_, hmono⟩ | ⟨hfalls, hdegree, hl, hm, hr⟩
  · exact hmono hxy
  · rw [hdegree]
    exact peakedDegree_mono hl hm hr hxy (hy hfalls)

end Curve

end GoalBudget
