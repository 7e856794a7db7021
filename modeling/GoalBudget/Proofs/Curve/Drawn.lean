import GoalBudget.Curve.Pieces
import GoalBudget.Proofs.Curve.Chain

/-!
# Curves drawn by their lines

The lines of a curve draw it when they cover the curve from end to end and each of them agrees with
it (`Curve.Drawn`). Jumps are possible at the ends only: a curve may start above zero, and one that
falls may end above zero.

The cut from zero to a ceiling then traces the curve (`Curve.Drawn.traced`): no line that covers an
amount is above the satisfaction there, and one of them reaches it. At a jump two lines cover the
amount and the upper one is right. That is what an encoding needs: a solver that maximizes chooses
the upper line by itself.

The curves are dealt with by shape. A line and a chain are read from the left, so they draw what
they are if they rise (`drawn_of_rises`). A peak or plateau has up to three lines, with those of no
width left out, and agrees with each of them by a computation (`peakedPieces_agree`).
-/

namespace GoalBudget

open Segment

namespace Curve

/-- Where the level tail of a curve lies. -/
def tailLevel (c : Curve Rat) (last : Segment Rat) : Rat := if c.isMonotone then last.cap else 0

/-- A curve that its lines draw between `a` and `b`. -/
structure Drawn (c : Curve Rat) (a b : Rat) : Prop where
  head : ∃ first, c.pieces.head? = some first ∧ first.lower = a
  last : ∃ last, c.pieces.getLast? = some last ∧ last.upper = b ∧
    c.tailLevel last ≤ c.degree b ∧ ∀ x, b < x → c.degree x = c.tailLevel last
  agrees : ∀ s ∈ c.pieces, ∀ x, s.Covers x → s.lineAt x = c.degree x ∧ c.degree x ≤ s.cap
  covered : ∀ x, a ≤ x → x ≤ b → ∃ s ∈ c.pieces, s.Covers x
  before : ∀ x, x < a → c.degree x = 0
  nonneg : ∀ x, 0 ≤ c.degree x

/-- Lines of which none that covers an amount is above the satisfaction there, and one reaches
it. -/
def TracedAt (c : Curve Rat) (segments : List (Segment Rat)) (x : Rat) : Prop :=
  (∀ s ∈ segments, s.Covers x → s.lineAt x ≤ c.degree x) ∧
    ∃ s ∈ segments, s.Covers x ∧ s.lineAt x = c.degree x ∧ c.degree x ≤ s.cap

variable {c : Curve Rat} {a b : Rat}

section
variable {first last : Segment Rat} (hfirst : c.pieces.head? = some first)
  (hlast : c.pieces.getLast? = some last)
include hfirst hlast

/-- A level line in front, the lines of the curve, and a level tail. -/
theorem decompose_eq (ceiling : Rat) :
    c.decompose ceiling = (if 0 < first.lower then [level 0 first.lower 0] else []) ++ c.pieces ++
      (if last.upper < ceiling then [level last.upper ceiling (c.tailLevel last)] else []) := by
  simp only [decompose, hfirst, hlast, tailLevel]

/-- The lines of the cut: a front before the curve starts, the lines of the curve, and a tail behind
it. -/
theorem mem_decompose (ceiling : Rat) (s : Segment Rat) :
    s ∈ c.decompose ceiling ↔ 0 < first.lower ∧ s = level 0 first.lower 0 ∨ s ∈ c.pieces ∨
      last.upper < ceiling ∧ s = level last.upper ceiling (c.tailLevel last) := by
  rw [decompose_eq hfirst hlast]
  simp only [List.mem_append]
  constructor
  · rintro ((hfront | hcore) | htail)
    -- in front of the curve there is a level line only if it starts above zero
    · split at hfront
      next hpos => exact Or.inl ⟨hpos, List.mem_singleton.mp hfront⟩
      next => cases hfront
    · exact Or.inr (Or.inl hcore)
    · split at htail
      next hlt => exact Or.inr (Or.inr ⟨hlt, List.mem_singleton.mp htail⟩)
      next => cases htail
  · rintro (⟨hpos, rfl⟩ | hcore | ⟨hlt, rfl⟩)
    · rw [if_pos hpos]
      exact Or.inl (Or.inl (List.mem_cons_self ..))
    · exact Or.inl (Or.inr hcore)
    · rw [if_pos hlt]
      exact Or.inr (List.mem_cons_self ..)

end

/-- Cut from zero to a ceiling, a curve that is drawn is traced. -/
theorem Drawn.traced (h : c.Drawn a b) {ceiling x : Rat} (hx : 0 ≤ x) (hceiling : x ≤ ceiling) :
    c.TracedAt (c.decompose ceiling) x := by
  obtain ⟨first, hfirst, rfl⟩ := h.head
  obtain ⟨last, hlast, rfl, htail, hafter⟩ := h.last
  have hmem := mem_decompose hfirst hlast ceiling
  constructor
  · intro s hs hcovers
    rcases (hmem s).mp hs with ⟨_, rfl⟩ | hs | ⟨_, rfl⟩
    · rw [lineAt_level]
      exact h.nonneg x
    · exact le_of_eq (h.agrees s hs x hcovers).1
    · rw [lineAt_level]
      -- the tail starts at the end of the curve, where it may be too low
      rcases eq_or_lt_of_le (show last.upper ≤ x from hcovers.1) with rfl | hlt
      · exact htail
      · exact le_of_eq (hafter x hlt).symm
  · by_cases hbefore : x < first.lower
    · have hzero := h.before x hbefore
      refine ⟨level 0 first.lower 0, (hmem _).mpr (Or.inl ⟨lt_of_le_of_lt hx hbefore, rfl⟩),
        ⟨hx, le_of_lt hbefore⟩, ?_, le_of_eq hzero⟩
      rw [lineAt_level, hzero]
    · by_cases hinside : x ≤ last.upper
      · obtain ⟨s, hs, hcovers⟩ := h.covered x (not_lt.mp hbefore) hinside
        exact ⟨s, (hmem s).mpr (Or.inr (Or.inl hs)), hcovers, h.agrees s hs x hcovers⟩
      · have hlt := not_le.mp hinside
        have hlevel := hafter x hlt
        refine ⟨level last.upper ceiling (c.tailLevel last),
          (hmem _).mpr (Or.inr (Or.inr ⟨lt_of_lt_of_le hlt hceiling, rfl⟩)),
          ⟨le_of_lt hlt, hceiling⟩, ?_, le_of_eq hlevel⟩
        rw [lineAt_level, hlevel]

/-! ## Chains -/

/-- A chain that rises draws its curve. -/
theorem drawn_of_rises {m top : Rat} (hrises : Rises a m c.pieces b top) (hne : c.pieces ≠ [])
    (hm : 0 ≤ m) (hdegree : c.degree = chainDegree 0 c.pieces)
    (hmonotone : c.isMonotone = true) : c.Drawn a b := by
  obtain ⟨last, hlast, hupper, hcap, hcovers, hline⟩ := hrises.getLast? hne
  have htail : c.tailLevel last = top := by rw [tailLevel, if_pos hmonotone, hcap]
  constructor
  case head =>
    cases hpieces : c.pieces with
    | nil => exact absurd hpieces hne
    | cons first rest =>
      rw [hpieces] at hrises
      cases hrises with
      | cons hlower _ _ _ _ _ => exact ⟨first, rfl, hlower⟩
  case last =>
    have hmem := List.mem_of_getLast? hlast
    refine ⟨last, hlast, hupper, ?_, ?_⟩
    -- the tail keeps the cap of the last line, which the line reaches at its end
    · rw [htail, ← hline, hdegree, (hrises.lineAt_eq hm 0 last hmem hcovers).1]
    · intro x hx
      rw [htail, hdegree, hrises.chainDegree_after hne hx]
  case agrees =>
    intro s hs x hcovers
    obtain ⟨heq, hcap⟩ := hrises.lineAt_eq hm 0 s hs hcovers
    rw [hdegree, ← heq]
    exact ⟨rfl, hcap⟩
  case covered => exact fun x => hrises.exists_covers hne
  case before =>
    intro x hx
    rw [hdegree, hrises.chainDegree_before hx]
  case nonneg =>
    intro x
    rw [hdegree]
    exact chainDegree_nonneg (le_refl 0) (hrises.cap_nonneg hm)

/-! ## What the constructors make -/

/-- A curve with corners is what it was made from, and its corners are in order. -/
theorem check_eq_ok {shape : Shape} {k : Corners Rat} (hpiecewise : shape ≠ .piecewise)
    (hsigmoid : shape ≠ .sCurve) (h : check shape k [] = .ok c) :
    c = ⟨shape, k, []⟩ ∧ k.lower ≤ k.peakLeft ∧ k.peakLeft ≤ k.peakRight ∧
      k.peakRight ≤ k.upper := by
  cases shape with
  | piecewise => exact absurd rfl hpiecewise
  | sCurve => exact absurd rfl hsigmoid
  | linear | triangular | trapezoidal =>
    simp only [check] at h
    split at h
    next horder =>
      cases h
      exact ⟨rfl, horder⟩
    next => cases h

/-- What it takes for lines to be a curve. -/
theorem piecewise_eq_ok {c : Curve Rat} {segments : List (Segment Rat)}
    (h : piecewise segments = .ok c) :
    c.shape = .piecewise ∧ c.segments = segments ∧ segments ≠ [] ∧
      checkSegments segments = .ok () := by
  simp only [piecewise, check] at h
  cases segments with
  | nil => cases h
  | cons first rest =>
    obtain ⟨_, hcheck, h⟩ := bind_eq_ok.mp h
    cases pure_eq_ok.mp h
    exact ⟨rfl, rfl, List.cons_ne_nil _ _, hcheck⟩

/-- A chain through anchors has the lines through them. -/
theorem throughPoints_eq_ok {points : List (Rat × Rat)} (h : throughPoints points = .ok c) :
    c.shape = .piecewise ∧ Segment.through points = .ok c.segments := by
  obtain ⟨segments, hthrough, hpiecewise⟩ := bind_eq_ok.mp h
  obtain ⟨hshape, rfl, _⟩ := piecewise_eq_ok hpiecewise
  exact ⟨hshape, hthrough⟩

/-- A sigmoid has the lines of its corners. -/
theorem sCurve_eq_ok {lower peakLeft peakRight upper : Rat}
    (h : sCurve lower peakLeft peakRight upper = .ok c) :
    c.shape = .sCurve ∧ sigmoid lower peakLeft peakRight upper = .ok c.segments := by
  obtain ⟨lines, hlines, h⟩ := bind_eq_ok.mp h
  cases h
  exact ⟨rfl, hlines⟩

section
variable (hshape : c.shape = .piecewise ∨ c.shape = .sCurve)
include hshape

/-- The lines of a chain are cut as they are. -/
theorem pieces_eq_segments : c.pieces = c.segments := by
  rw [pieces]
  rcases hshape with hshape | hshape <;> rw [hshape]

/-- The satisfaction with a chain is read along its lines. -/
theorem degree_eq_chainDegree : c.degree = chainDegree 0 c.segments := by
  funext x
  rw [degree]
  rcases hshape with hshape | hshape <;> rw [hshape]

/-- A chain counts as never falling. -/
theorem isMonotone_of_segments : c.isMonotone = true := by
  rw [isMonotone]
  rcases hshape with hshape | hshape <;> rw [hshape] <;> rfl

end

/-! ## Rising curves -/

/-- The line that rises from zero to one. -/
def rise (lower upper : Rat) : Segment Rat :=
  ⟨lower, upper, 1 / (upper - lower), -lower * (1 / (upper - lower)), 1⟩

/-- The rising side as a quotient. -/
theorem lineAt_rise (lower upper x : Rat) :
    (rise lower upper).lineAt x = (x - lower) / (upper - lower) := by
  show 1 / (upper - lower) * x + -lower * (1 / (upper - lower)) = _
  ring

theorem slope_rise_nonneg {lower upper : Rat} (h : lower < upper) : 0 ≤ (rise lower upper).slope :=
  div_nonneg zero_le_one (le_of_lt (sub_pos.mpr h))

/-- A rising curve of no width is a step, any other one a line from zero to one. -/
theorem rises_risingPieces {k : Corners Rat} (h : k.lower ≤ k.upper) :
    risingPieces k ≠ [] ∧ ∃ m, 0 ≤ m ∧ Rises k.lower m (risingPieces k) k.upper 1 := by
  rw [risingPieces]
  split
  next hstep =>
    have heq : k.upper = k.lower := le_antisymm hstep h
    rw [heq]
    refine ⟨List.cons_ne_nil _ _, 1, zero_le_one, ?_⟩
    exact .cons rfl (le_refl _) (le_refl _) (lineAt_level _ _ _ _) (lineAt_level _ _ _ _) (.nil _ _)
  next hline =>
    have hlt := not_le.mp hline
    have hne : k.upper - k.lower ≠ 0 := ne_of_gt (sub_pos.mpr hlt)
    refine ⟨List.cons_ne_nil _ _, 0, le_refl 0, ?_⟩
    refine .cons rfl h (slope_rise_nonneg hlt) ?_ ?_ (.nil _ _)
    · show (rise k.lower k.upper).lineAt k.lower = 0
      rw [lineAt_rise, sub_self, zero_div]
    · show (rise k.lower k.upper).lineAt k.upper = 1
      rw [lineAt_rise, div_self hne]

/-- A line is a chain of one line. -/
theorem risingDegree_eq_chainDegree {k : Corners Rat} (h : k.lower ≤ k.upper) (x : Rat) :
    risingDegree k x = chainDegree 0 (risingPieces k) x := by
  obtain ⟨hne, m, hm, hrises⟩ := rises_risingPieces h
  rw [risingDegree]
  split
  next hbefore => rw [hrises.chainDegree_before hbefore]
  next hbefore =>
    have hlower := not_lt.mp hbefore
    split
    next hafter =>
      rcases eq_or_lt_of_le hafter with heq | hlt
      · -- at its end the chain has reached one
        obtain ⟨last, hlast, _, _, hcovers, hline⟩ := hrises.getLast? hne
        have hmem := List.mem_of_getLast? hlast
        rw [← heq, ← (hrises.lineAt_eq hm 0 last hmem hcovers).1, hline]
      · rw [hrises.chainDegree_after hne hlt]
    next hafter =>
      have hupper := not_le.mp hafter
      have hmem : rise k.lower k.upper ∈ risingPieces k := by
        rw [risingPieces, if_neg (by linarith)]
        exact List.mem_cons_self ..
      rw [← (hrises.lineAt_eq hm 0 _ hmem ⟨hlower, le_of_lt hupper⟩).1, lineAt_rise]

/-- A rising curve is a chain of one line that rises. -/
theorem linear_eq_ok {lower upper : Rat} (h : linear lower upper = .ok c) :
    c.isMonotone = true ∧ c.degree = chainDegree 0 c.pieces ∧
      ∃ s m, c.pieces = [s] ∧ 0 ≤ m ∧ Rises lower m [s] upper c.cap := by
  obtain ⟨rfl, _, horder, _⟩ := check_eq_ok (by decide) (by decide) h
  obtain ⟨_, m, hm, hrises⟩ := rises_risingPieces (k := ⟨lower, lower, upper, upper⟩) horder
  obtain ⟨s, hsingle⟩ : ∃ s, risingPieces ⟨lower, lower, upper, upper⟩ = [s] := by
    rw [risingPieces]
    split
    next => exact ⟨_, rfl⟩
    next => exact ⟨_, rfl⟩
  refine ⟨rfl, funext (risingDegree_eq_chainDegree horder), s, m, hsingle, hm, ?_⟩
  rwa [hsingle] at hrises

/-- The line of a linear curve draws it. -/
theorem drawn_linear {lower upper : Rat} (h : linear lower upper = .ok c) :
    c.Drawn lower upper := by
  obtain ⟨hmonotone, hdegree, s, m, hsingle, hm, hrises⟩ := linear_eq_ok h
  rw [← hsingle] at hrises
  exact drawn_of_rises hrises (hsingle ▸ List.cons_ne_nil s []) hm hdegree hmonotone

/-! ## Peaks and plateaus -/

/-- The line that falls from one to zero. -/
def fall (lower upper : Rat) : Segment Rat :=
  ⟨lower, upper, -1 / (upper - lower), 1 - lower * (-1 / (upper - lower)), 1⟩

/-- The falling side as a quotient. -/
theorem lineAt_fall {lower upper : Rat} (h : lower < upper) (x : Rat) :
    (fall lower upper).lineAt x = (upper - x) / (upper - lower) := by
  have hne : upper - lower ≠ 0 := sub_ne_zero.mpr (ne_of_gt h)
  show -1 / (upper - lower) * x + (1 - lower * (-1 / (upper - lower))) = _
  field_simp
  ring

section
variable {k : Corners Rat} {x : Rat}

/-- The lines of a peak or plateau: a rise, a level line and a fall, as far as they have a width. -/
theorem mem_peakedPieces {s : Segment Rat} :
    s ∈ peakedPieces k ↔ k.lower < k.peakLeft ∧ s = rise k.lower k.peakLeft ∨
      k.peakLeft < k.peakRight ∧ s = level k.peakLeft k.peakRight 1 ∨
      k.peakRight < k.upper ∧ s = fall k.peakRight k.upper ∨
      ¬k.lower < k.peakLeft ∧ ¬k.peakLeft < k.peakRight ∧ ¬k.peakRight < k.upper ∧
        s = level k.lower k.upper 1 := by
  by_cases hl : k.lower < k.peakLeft <;> by_cases hm : k.peakLeft < k.peakRight <;>
    by_cases hr : k.peakRight < k.upper <;> simp [peakedPieces, hl, hm, hr, rise, fall]

/-- From the first corner to the last one. -/
theorem ends_peakedPieces (hl : k.lower ≤ k.peakLeft) (hm : k.peakLeft ≤ k.peakRight)
    (hr : k.peakRight ≤ k.upper) :
    (∃ first, (peakedPieces k).head? = some first ∧ first.lower = k.lower) ∧
      ∃ last, (peakedPieces k).getLast? = some last ∧ last.upper = k.upper := by
  -- a side that is left out has no width, so the next line starts where it would have
  by_cases hl' : k.lower < k.peakLeft <;> by_cases hm' : k.peakLeft < k.peakRight <;>
    by_cases hr' : k.peakRight < k.upper <;>
    simp only [peakedPieces, hl', hm', hr', if_true, if_false, List.nil_append, List.append_nil,
      List.cons_append] <;>
    refine ⟨⟨_, rfl, ?_⟩, ⟨_, rfl, ?_⟩⟩ <;> dsimp only [level, List.getLast] <;> linarith

/-- Outside its ends a peak gives nothing. -/
theorem peakedDegree_outside (h : x < k.lower ∨ k.upper < x) : peakedDegree k x = 0 := by
  rw [peakedDegree, if_pos h]

/-- On the plateau it gives everything. -/
theorem peakedDegree_plateau (hl : k.lower ≤ k.peakLeft) (hr : k.peakRight ≤ k.upper)
    (h : k.peakLeft ≤ x) (h' : x ≤ k.peakRight) : peakedDegree k x = 1 := by
  have hout : ¬(x < k.lower ∨ k.upper < x) := by
    rintro (hx | hx)
    · linarith
    · linarith
  rw [peakedDegree, if_neg hout, if_neg (not_lt.mpr h), if_pos h']

/-- On the rising side it gives a part of the way. -/
theorem peakedDegree_rise (hm : k.peakLeft ≤ k.peakRight) (hr : k.peakRight ≤ k.upper)
    (hlt : k.lower < k.peakLeft) (h : k.lower ≤ x) (h' : x ≤ k.peakLeft) :
    peakedDegree k x = (x - k.lower) / (k.peakLeft - k.lower) := by
  rcases eq_or_lt_of_le h' with rfl | h'
  · rw [peakedDegree_plateau hlt.le hr (le_refl _) hm, div_self (ne_of_gt (sub_pos.mpr hlt))]
  · have hout : ¬(x < k.lower ∨ k.upper < x) := by
      rintro (hx | hx)
      · linarith
      · linarith
    have hbeq : (k.peakLeft == k.lower) = false := beq_eq_false_iff_ne.mpr (ne_of_gt hlt)
    rw [peakedDegree, if_neg hout, if_pos h', hbeq]
    rfl

/-- On the falling side it gives what remains of the way. -/
theorem peakedDegree_fall (hl : k.lower ≤ k.peakLeft) (hm : k.peakLeft ≤ k.peakRight)
    (hlt : k.peakRight < k.upper) (h : k.peakRight ≤ x) (h' : x ≤ k.upper) :
    peakedDegree k x = (k.upper - x) / (k.upper - k.peakRight) := by
  rcases eq_or_lt_of_le h with rfl | h
  · rw [peakedDegree_plateau hl hlt.le hm (le_refl _), div_self (ne_of_gt (sub_pos.mpr hlt))]
  · have hout : ¬(x < k.lower ∨ k.upper < x) := by
      rintro (hx | hx)
      · linarith
      · linarith
    have hbeq : (k.peakRight == k.upper) = false := beq_eq_false_iff_ne.mpr (ne_of_lt hlt)
    rw [peakedDegree, if_neg hout, if_neg (by linarith), if_neg (not_le.mpr h), hbeq]
    rfl

/-- The lines leave no gap between the ends. -/
theorem exists_peakedPieces_covers (hx : k.lower ≤ x) (hx' : x ≤ k.upper) :
    ∃ s ∈ peakedPieces k, s.Covers x := by
  by_cases hleft : k.lower < k.peakLeft ∧ x ≤ k.peakLeft
  · exact ⟨_, mem_peakedPieces.mpr (Or.inl ⟨hleft.1, rfl⟩), hx, hleft.2⟩
  by_cases hright : k.peakRight < k.upper ∧ k.peakRight ≤ x
  · exact ⟨_, mem_peakedPieces.mpr (Or.inr (Or.inr (Or.inl ⟨hright.1, rfl⟩))), hright.2, hx'⟩
  rw [not_and_or, not_lt, not_le] at hleft hright
  -- on neither side, so on the plateau, or at the only point there is
  have hpl : k.peakLeft ≤ x := by
    rcases hleft with hleft | hleft <;> linarith
  have hpr : x ≤ k.peakRight := by
    rcases hright with hright | hright <;> linarith
  by_cases hmiddle : k.peakLeft < k.peakRight
  · exact ⟨_, mem_peakedPieces.mpr (Or.inr (Or.inl ⟨hmiddle, rfl⟩)), hpl, hpr⟩
  · refine ⟨level k.lower k.upper 1,
      mem_peakedPieces.mpr (Or.inr (Or.inr (Or.inr ⟨?_, hmiddle, ?_, rfl⟩))), hx, hx'⟩
    · rcases hleft with hleft | hleft <;> linarith
    · rcases hright with hright | hright <;> linarith

section
variable (hl : k.lower ≤ k.peakLeft) (hm : k.peakLeft ≤ k.peakRight) (hr : k.peakRight ≤ k.upper)
include hl hm hr

/-- Each line is right where it covers an amount. -/
theorem peakedPieces_agree {s : Segment Rat} (hs : s ∈ peakedPieces k) (hcovers : s.Covers x) :
    s.lineAt x = peakedDegree k x ∧ peakedDegree k x ≤ s.cap := by
  rcases mem_peakedPieces.mp hs with ⟨hlt, rfl⟩ | ⟨_, rfl⟩ | ⟨hlt, rfl⟩ | ⟨hl', hm', hr', rfl⟩
  · obtain ⟨hx, hx'⟩ : k.lower ≤ x ∧ x ≤ k.peakLeft := hcovers
    rw [lineAt_rise, peakedDegree_rise hm hr hlt hx hx']
    exact ⟨rfl, (div_le_one (sub_pos.mpr hlt)).mpr (by linarith)⟩
  · rw [lineAt_level, peakedDegree_plateau hl hr hcovers.1 hcovers.2]
    exact ⟨rfl, le_refl _⟩
  · obtain ⟨hx, hx'⟩ : k.peakRight ≤ x ∧ x ≤ k.upper := hcovers
    rw [lineAt_fall hlt, peakedDegree_fall hl hm hlt hx hx']
    exact ⟨rfl, (div_le_one (sub_pos.mpr hlt)).mpr (by linarith)⟩
  · -- a single point, where the satisfaction jumps to one
    obtain ⟨hx, hx'⟩ : k.lower ≤ x ∧ x ≤ k.upper := hcovers
    rw [lineAt_level, peakedDegree_plateau hl hr (by linarith) (by linarith)]
    exact ⟨rfl, le_refl _⟩

theorem peakedDegree_nonneg (x : Rat) : 0 ≤ peakedDegree k x := by
  by_cases hout : x < k.lower ∨ k.upper < x
  · rw [peakedDegree_outside hout]
  · rw [not_or, not_lt, not_lt] at hout
    obtain ⟨s, hs, hcovers⟩ := exists_peakedPieces_covers hout.1 hout.2
    rw [← (peakedPieces_agree hl hm hr hs hcovers).1]
    obtain ⟨hx, hx'⟩ := hcovers
    rcases mem_peakedPieces.mp hs with ⟨hlt, rfl⟩ | ⟨_, rfl⟩ | ⟨hlt, rfl⟩ | ⟨_, _, _, rfl⟩
    · rw [lineAt_rise]
      exact div_nonneg (sub_nonneg.mpr hx) (le_of_lt (sub_pos.mpr hlt))
    · rw [lineAt_level]
      exact zero_le_one
    · rw [lineAt_fall hlt]
      exact div_nonneg (sub_nonneg.mpr hx') (le_of_lt (sub_pos.mpr hlt))
    · rw [lineAt_level]
      exact zero_le_one

end

end

/-- The lines of a peak or plateau draw it. -/
theorem drawn_peaked {k : Corners Rat} (hshape : c.shape = .triangular ∨ c.shape = .trapezoidal)
    (hcorners : c.corners = k) (hl : k.lower ≤ k.peakLeft) (hm : k.peakLeft ≤ k.peakRight)
    (hr : k.peakRight ≤ k.upper) : c.Drawn k.lower k.upper := by
  -- Triangle and trapezoid differ in their corners only.
  have hpieces : c.pieces = peakedPieces k := by
    rw [pieces, hcorners]
    rcases hshape with hshape | hshape <;> rw [hshape]
  have hdegree : c.degree = peakedDegree k := by
    funext x
    rw [degree, hcorners]
    rcases hshape with hshape | hshape <;> rw [hshape]
  have htail (last : Segment Rat) : c.tailLevel last = 0 := by
    rw [tailLevel, isMonotone]
    rcases hshape with hshape | hshape <;> rw [hshape] <;> rfl
  obtain ⟨hfirst, last, hlast, hupper⟩ := ends_peakedPieces hl hm hr
  constructor
  case head => rwa [hpieces]
  case last =>
    refine ⟨last, by rwa [hpieces], hupper, ?_, ?_⟩
    · rw [htail, hdegree]
      exact peakedDegree_nonneg hl hm hr _
    · intro x hx
      rw [htail, hdegree, peakedDegree_outside (Or.inr hx)]
  case agrees =>
    rw [hpieces, hdegree]
    exact fun s hs x hcovers => peakedPieces_agree hl hm hr hs hcovers
  case covered =>
    rw [hpieces]
    exact fun x => exists_peakedPieces_covers
  case before =>
    intro x hx
    rw [hdegree, peakedDegree_outside (Or.inl hx)]
  case nonneg =>
    rw [hdegree]
    exact peakedDegree_nonneg hl hm hr

end Curve

end GoalBudget
