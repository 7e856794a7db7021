import GoalBudget.Proofs.Curve.Checked
import GoalBudget.Proofs.Curve.Continuous
import GoalBudget.Proofs.Curve.Joined

/-!
# The lines of a sigmoid

Where anchors advance, every anchor is a breakpoint of the lines through them
(`breakpoints_chain`), and the satisfaction there is that of the anchor (`chainDegree_anchor`).

The anchors of a sigmoid advance if its steep part lies the right way round. Each peak that is out
of place is replaced on its own, the right one by 70 % of the range even if the left one, kept
where it is, lies behind that: then the peaks are crossed (`Crossed`), anchors are skipped, and
lines are missing. Everywhere else the sigmoid is complete, so it is exactly if the peaks are not
crossed (`sigmoid_complete_iff`).
-/

namespace GoalBudget

open Segment Curve

/-- Where lines without a gap start, meet and end. -/
def breakpoints : List (Segment Rat) → List Rat
  | [] => []
  | s :: rest => s.lower :: (s :: rest).map (·.upper)

/-! ## Anchors that advance -/

section
variable {rest : List (Rat × Rat)} {xa ma : Rat}

/-- The amounts of anchors that advance ascend. -/
theorem amounts_ascend {points : List (Rat × Rat)} (h : points.IsChain Advances) :
    (points.map Prod.fst).Pairwise (· < ·) :=
  List.isChain_iff_pairwise.mp ((List.isChain_map Prod.fst).mpr (h.imp fun _ _ hab => hab.1))

/-- Each line ends at an anchor. -/
theorem uppers_chain (h : ((xa, ma) :: rest).IsChain Advances) :
    (chain xa ma rest).1.map (·.upper) = rest.map Prod.fst := by
  induction rest generalizing xa ma with
  | nil => rfl
  | cons anchor rest ih =>
    obtain ⟨xb, mb⟩ := anchor
    obtain ⟨hadvance, hrest⟩ := List.isChain_cons_cons.mp h
    rw [chain_advance hadvance.1, List.map_cons, List.map_cons, ih hrest]
    rfl

/-- The chain breaks at the anchors. -/
theorem breakpoints_chain (h : ((xa, ma) :: rest).IsChain Advances) (hne : rest ≠ []) :
    breakpoints (chain xa ma rest).1 = ((xa, ma) :: rest).map Prod.fst := by
  have huppers := uppers_chain h
  cases rest with
  | nil => exact absurd rfl hne
  | cons anchor rest =>
    obtain ⟨xb, mb⟩ := anchor
    obtain ⟨hadvance, _⟩ := List.isChain_cons_cons.mp h
    rw [chain_advance hadvance.1] at huppers ⊢
    rw [List.map_cons, ← huppers]
    rfl

/-- One more anchor is one more line at most. -/
theorem length_chain_cons_le (xa ma : Rat) (anchor : Rat × Rat) {n : Nat}
    (h : ∀ xb mb, (chain xb mb rest).1.length ≤ n) :
    (chain xa ma (anchor :: rest)).1.length ≤ n + 1 := by
  obtain ⟨xb, mb⟩ := anchor
  by_cases hx : xb ≤ xa
  · rw [chain_skip hx]
    exact (h xa _).trans (Nat.le_succ n)
  · rw [chain_advance (not_le.mp hx)]
    exact Nat.succ_le_succ (h xb mb)

theorem length_chain_le (xa ma : Rat) (rest : List (Rat × Rat)) :
    (chain xa ma rest).1.length ≤ rest.length := by
  induction rest generalizing xa ma with
  | nil => exact le_refl 0
  | cons anchor rest ih => exact length_chain_cons_le xa ma anchor ih

/-- An anchor that does not advance over the one before it is skipped, whether that one is or
not. -/
theorem length_chain_of_skip {xb mb xc mc : Rat} (xa ma : Rat) (h : xc ≤ xb) :
    (chain xa ma ((xb, mb) :: (xc, mc) :: rest)).1.length ≤ rest.length + 1 := by
  by_cases hx : xb ≤ xa
  · rw [chain_skip hx, chain_skip (h.trans hx)]
    exact (length_chain_le xa _ rest).trans (Nat.le_succ _)
  · rw [chain_advance (not_le.mp hx), chain_skip h]
    exact Nat.succ_le_succ (length_chain_le xb _ rest)

end

/-- At every anchor the chain has the satisfaction of the anchor. -/
theorem chainDegree_anchor {rest : List (Rat × Rat)} {xa ma : Rat}
    (h : ((xa, ma) :: rest).IsChain Advances) (hma : 0 ≤ ma) :
    ∀ anchor ∈ (xa, ma) :: rest, chainDegree ma (chain xa ma rest).1 anchor.1 = anchor.2 := by
  induction rest generalizing xa ma with
  | nil =>
    intro anchor hmem
    cases List.mem_singleton.mp hmem
    rfl
  | cons next rest ih =>
    obtain ⟨xb, mb⟩ := next
    obtain ⟨hadvance, hrest⟩ := List.isChain_cons_cons.mp h
    have hrises := rises_chain h
    intro anchor hmem
    rcases List.mem_cons.mp hmem with rfl | hmem
    · exact hrises.chainDegree_start hma
    -- Every later anchor lies behind the first segment, where the chain reads the rest.
    · have hbehind : xb ≤ anchor.1 := by
        rcases List.mem_cons.mp hmem with rfl | hlater
        · exact le_refl xb
        · exact ((List.pairwise_cons.mp (amounts_ascend hrest)).1 anchor.1
            (List.mem_map_of_mem hlater)).le
      rw [chain_advance hadvance.1] at hrises ⊢
      rw [hrises.chainDegree_rest hma hbehind]
      exact ih hrest (hma.trans hadvance.2) anchor hmem

/-! ## Sigmoids -/

section
variable {lower peakLeft peakRight upper left right : Rat}

/-- Whether the left peak of a sigmoid stays behind the place where the right one, which is out of
place, is moved to. -/
def Crossed (lower peakLeft peakRight upper : Rat) : Prop :=
  lower + 0.7 * (upper - lower) ≤ peakLeft ∧ peakLeft < upper ∧
    (peakRight ≤ peakLeft ∨ upper ≤ peakRight)

/-- A sigmoid with all of its lines: eight of them, without a gap, from `lower` to 120 % of
`upper`, and a curve without a jump that runs through the nine satisfactions. -/
structure Curve.CompleteSigmoid (c : Curve Rat) (lower upper : Rat) : Prop where
  length : c.segments.length = 8
  joined : Joined c.segments
  ascending : (breakpoints c.segments).Pairwise (· < ·)
  first : (breakpoints c.segments).head? = some lower
  last : (breakpoints c.segments).getLast? = some (1.2 * upper)
  continuous : Continuous c.degree
  levels : (breakpoints c.segments).map c.degree =
    [0, 0.05, 0.15, 0.35, 0.65, 0.85, 0.95, 1, 1.05]

/-- Unless they are crossed, the peaks are put in order. -/
theorem steep_of_not_crossed (h : lower < upper)
    (huncrossed : ¬Crossed lower peakLeft peakRight upper) :
    lower < steepStart lower peakLeft upper ∧
      steepStart lower peakLeft upper <
        steepEnd lower (steepStart lower peakLeft upper) peakRight upper ∧
      steepEnd lower (steepStart lower peakLeft upper) peakRight upper < upper := by
  have hstart : lower < steepStart lower peakLeft upper ∧
      steepStart lower peakLeft upper < upper := by
    rw [steepStart]
    split
    next => constructor <;> linarith
    next hkept =>
      rw [not_or, not_le, not_le] at hkept
      exact hkept
  refine ⟨hstart.1, ?_⟩
  rw [steepEnd]
  split
  next hmoved =>
    refine ⟨?_, by linarith⟩
    rw [steepStart] at hmoved ⊢
    split at hmoved
    next hleft =>
      rw [if_pos hleft]
      linarith
    next hleft =>
      -- the left peak is kept, so it must not lie behind the place of the right one
      rw [if_neg hleft]
      rw [not_or, not_le, not_le] at hleft
      by_contra hbehind
      exact huncrossed ⟨not_lt.mp hbehind, hleft.2, hmoved⟩
  next hkept =>
    rw [not_or, not_le, not_le] at hkept
    exact hkept

/-- With crossed peaks the steep part ends before it begins. -/
theorem steep_of_crossed (hcrossed : Crossed lower peakLeft peakRight upper) :
    steepEnd lower (steepStart lower peakLeft upper) peakRight upper ≤
      steepStart lower peakLeft upper := by
  obtain ⟨hbehind, hleft, hright⟩ := hcrossed
  have hstart : steepStart lower peakLeft upper = peakLeft := by
    rw [steepStart, if_neg]
    rw [not_or, not_le, not_le]
    exact ⟨by linarith, hleft⟩
  rw [hstart, steepEnd, if_pos hright]
  exact hbehind

/-- Where anchors advance, no single line stands in for the chain. -/
theorem eq_chain_of_through {x m : Rat} {rest : List (Rat × Rat)} {segments : List (Segment Rat)}
    (hadvance : ((x, m) :: rest).IsChain Advances) (hne : rest ≠ [])
    (h : Segment.through ((x, m) :: rest) = .ok segments) : segments = (chain x m rest).1 := by
  have huppers := uppers_chain hadvance
  rw [Segment.through] at h
  split at h
  next hchain =>
    rw [hchain] at huppers
    exact absurd (List.map_eq_nil_iff.mp huppers.symm) hne
  next hchain =>
    cases h
    rw [hchain]

/-- Where the steep part lies the right way round, the sigmoid has all of its lines. -/
theorem completeSigmoid_of_steep {c : Curve Rat} (hpos : 0 < upper) (hrise : lower < left)
    (hsteep : left < right) (hend : right < upper) (hshape : c.shape = .sCurve)
    (h : Segment.through (sigmoidAnchors lower left right upper) = .ok c.segments) :
    c.CompleteSigmoid lower upper := by
  have hadvance := isChain_sigmoidAnchors hrise hsteep hend
  obtain ⟨rest, hanchors, hlength, hlast, hlevels⟩ : ∃ rest,
      sigmoidAnchors lower left right upper = (lower, 0) :: rest ∧ rest.length = 8 ∧
        (((lower, 0) :: rest).map Prod.fst).getLast? = some (upper * 1.2) ∧
        ((lower, 0) :: rest).map Prod.snd = [0, 0.05, 0.15, 0.35, 0.65, 0.85, 0.95, 1, 1.05] := by
    -- The upper end is positive, so an anchor for the surplus stands behind all others.
    rw [sigmoidAnchors, if_pos (by linarith)]
    exact ⟨_, rfl, rfl, rfl, rfl⟩
  rw [hanchors] at h hadvance
  have hne : rest ≠ [] := by
    rintro rfl
    cases hlength
  have hsegments := eq_chain_of_through hadvance hne h
  have hbreaks := breakpoints_chain hadvance hne
  have hdegree : c.degree = chainDegree 0 (chain lower 0 rest).1 := by
    rw [degree_eq_chainDegree (.inr hshape), hsegments]
  have hrises := rises_chain hadvance
  constructor
  case length => rw [hsegments, ← List.length_map, uppers_chain hadvance, List.length_map, hlength]
  case joined => rw [hsegments]; exact hrises.joined
  case ascending => rw [hsegments, hbreaks]; exact amounts_ascend hadvance
  case first => rw [hsegments, hbreaks]; rfl
  case last => rw [hsegments, hbreaks, hlast, mul_comm]
  case continuous => rw [hdegree]; exact hrises.continuous (le_refl 0)
  case levels =>
    rw [hsegments, hbreaks, hdegree, List.map_map, ← hlevels]
    exact List.map_congr_left (chainDegree_anchor hadvance (le_refl 0))

/-- Where the steep part lies the wrong way round, the sigmoid lacks a line: the fourth anchor does
not advance. -/
theorem length_lt_of_steep {segments : List (Segment Rat)} (hsteep : right ≤ left)
    (h : Segment.through (sigmoidAnchors lower left right upper) = .ok segments) :
    segments.length < 8 := by
  obtain ⟨half, rest, hanchors, hlength⟩ : ∃ half rest,
      sigmoidAnchors lower left right upper = (lower, 0) :: half :: (left, 0.15) ::
        (left + (right - left) / 3, 0.35) :: rest ∧ rest.length ≤ 5 := by
    rw [sigmoidAnchors]
    split
    next => exact ⟨_, _, rfl, le_refl 5⟩
    next => exact ⟨_, _, rfl, Nat.le_succ 4⟩
  -- The anchor behind the left peak does not advance, so one segment is skipped.
  have hskip : left + (right - left) / 3 ≤ left := by linarith
  have hchain : (chain lower 0 (half :: (left, 0.15) :: (left + (right - left) / 3, 0.35) ::
      rest)).1.length ≤ rest.length + 1 + 1 :=
    length_chain_cons_le lower 0 half fun xa ma => length_chain_of_skip xa ma hskip
  rw [hanchors, Segment.through] at h
  split at h
  next =>
    cases h
    exact Nat.one_lt_ofNat
  next heq =>
    cases h
    rw [heq] at hchain
    exact hchain.trans_lt (by omega)

/-- A sigmoid is complete exactly if its peaks are not crossed. -/
theorem sigmoid_complete_iff (hrange : lower < upper) (hpos : 0 < upper)
    (peakLeft peakRight : Rat) :
    ∃ c, sCurve lower peakLeft peakRight upper = .ok c ∧
      sigmoid lower peakLeft peakRight upper = .ok c.segments ∧
      (c.CompleteSigmoid lower upper ↔ ¬Crossed lower peakLeft peakRight upper) := by
  obtain ⟨c, hc⟩ := exists_sCurve lower peakLeft peakRight upper
  obtain ⟨hshape, hsegments⟩ := sCurve_eq_ok hc
  refine ⟨c, hc, hsegments, ?_⟩
  rw [sigmoid_eq_through hrange] at hsegments
  constructor
  · intro hcomplete hcrossed
    have hless := length_lt_of_steep (steep_of_crossed hcrossed) hsegments
    exact absurd hcomplete.length (ne_of_lt hless)
  · intro huncrossed
    obtain ⟨hrise, hsteep, hend⟩ := steep_of_not_crossed hrange huncrossed
    exact completeSigmoid_of_steep hpos hrise hsteep hend hshape hsegments

/-- Peaks out of range on both sides are both replaced, and the sigmoid is complete. -/
theorem sigmoid_complete_iff_outOfRange : (0 : Rat) < 1000 ∧ (0 : Rat) < 1000 ∧
    ∃ c, sCurve 0 (-5) 5000 1000 = .ok c ∧ c.CompleteSigmoid 0 1000 := by
  have hrange : (0 : Rat) < 1000 := by norm_num
  obtain ⟨c, hc, _, hiff⟩ := sigmoid_complete_iff hrange hrange (-5) 5000
  refine ⟨hrange, hrange, c, hc, hiff.mpr ?_⟩
  -- both peaks are out of range, so both are moved
  rintro ⟨hbehind, _⟩
  norm_num at hbehind

/-- With the left peak at 80 and the right one at 20, which is moved to 70, three anchors in a row
are skipped and the curve jumps from 0.15 to 0.85. -/
theorem incomplete_sigmoid_crossed :
    ∃ c, sCurve 0 80 20 100 = .ok c ∧ c.segments.length = 5 ∧
      breakpoints c.segments = [0, 40, 80, 85, 100, 120] ∧
      (breakpoints c.segments).map c.degree = [0, 0.05, 0.15, 0.95, 1, 1.05] ∧
      (c.segments.map fun s => s.lineAt s.lower) = [0, 0.05, 0.85, 0.95, 1] := by
  obtain ⟨c, hc, hreads⟩ := exists_of_toOption_map (x := sCurve (0 : Rat) 80 20 100)
    (f := fun c => (c.segments.length, breakpoints c.segments,
      (breakpoints c.segments).map c.degree, c.segments.map fun s => s.lineAt s.lower))
    (y := (5, [0, 40, 80, 85, 100, 120], [0, 0.05, 0.15, 0.95, 1, 1.05], [0, 0.05, 0.85, 0.95, 1]))
    (by decide +kernel)
  simp only [Prod.mk.injEq] at hreads
  exact ⟨c, hc, hreads⟩

end

end GoalBudget
