import GoalBudget.Proofs.Curve.Joined
import GoalBudget.Proofs.Curve.Monotone

/-!
# Curves that pass their checks

A chain of lines that climbs without a gap has no falling cap, so it is a curve
(`checkSegments_of_climbs`, `exists_throughPoints`). A sigmoid is one wherever its corners are
(`exists_sCurve`). Every curve has a satisfaction for every amount (`degree?_eq_ok`): the one
division that is not guarded needs an amount that is not comparable with the corners, and over `Rat`
there is none.

So where a budget is turned into a fuzzy program, no curve is a reason to fail, and neither is any
evaluation of it in a run.
-/

namespace GoalBudget

namespace Segment

/-- There is a chain of lines through any anchors. -/
theorem exists_through (xa ma : Rat) (rest : List (Rat × Rat)) :
    ∃ segments, Segment.through ((xa, ma) :: rest) = .ok segments := by
  rw [Segment.through]
  split
  next => exact ⟨_, rfl⟩
  next => exact ⟨_, rfl⟩

/-- A sigmoid has lines wherever its corners are. -/
theorem exists_sigmoid (lower peakLeft peakRight upper : Rat) :
    ∃ segments, sigmoid lower peakLeft peakRight upper = .ok segments := by
  rw [sigmoid]
  split
  next => exact ⟨_, rfl⟩
  next =>
    dsimp only [sigmoidPoints, sigmoidLevels, List.zip_cons_cons]
    split
    next => exact exists_through ..
    next => exact exists_through ..

end Segment

open Segment

namespace Curve

/-- A rising line of no width has no room between its ends. -/
theorem degree?_eq_ok (c : Curve Rat) (x : Rat) : c.degree? x = .ok (c.degree x) := by
  have hregular : ¬c.isSingularAt x = true := by
    simp only [isSingularAt, Bool.and_eq_true, Bool.not_eq_true', decide_eq_false_iff_not,
      beq_iff_eq]
    rintro ⟨⟨⟨_, hlower⟩, hupper⟩, hwidth⟩
    linarith
  rw [degree?, if_neg hregular]

/-! ## Corners in order -/

/-- Ends in order make a line. -/
theorem exists_linear {lower upper : Rat} (h : lower ≤ upper) :
    ∃ c, linear lower upper = .ok c :=
  ⟨_, if_pos ⟨le_refl lower, h, le_refl upper⟩⟩

/-- Corners in order make a peak. -/
theorem exists_triangular {lower peak upper : Rat} (hl : lower ≤ peak) (hr : peak ≤ upper) :
    ∃ c, triangular lower peak upper = .ok c :=
  ⟨_, if_pos ⟨hl, le_refl peak, hr⟩⟩

/-- Corners in order make a plateau. -/
theorem exists_trapezoidal {lower peakLeft peakRight upper : Rat} (hl : lower ≤ peakLeft)
    (hm : peakLeft ≤ peakRight) (hr : peakRight ≤ upper) :
    ∃ c, trapezoidal lower peakLeft peakRight upper = .ok c :=
  ⟨_, if_pos ⟨hl, hm, hr⟩⟩

/-! ## Chains of lines -/

/-- A bound meets itself. -/
theorem meets_self (x : Rat) : meets x x = true := by
  rw [meets, beq_self_eq_true, Bool.true_or]

/-- The lines of a chain that climbs without a gap meet, and no cap falls. -/
theorem checkJoints_of_climbs {r : Rat} {segments : List (Segment Rat)} (h : Climbs r segments)
    (hjoined : Joined segments) : checkJoints segments = .ok () := by
  induction h with
  | nil => rfl
  | @cons r s rest horder hslope hstart hend hrest ih =>
    cases rest with
    | nil => rfl
    | cons t rest =>
      obtain ⟨hmeet, hjoined⟩ := joined_cons.mp hjoined
      have hcap := hrest.le_cap
      rw [checkJoints, hmeet t rfl, meets_self, if_neg (by simp), if_neg (not_lt.mpr hcap)]
      exact ih hjoined

/-- A chain that climbs without a gap passes the check. -/
theorem checkSegments_of_climbs {r : Rat} {segments : List (Segment Rat)} (h : Climbs r segments)
    (hjoined : Joined segments) : checkSegments segments = .ok () := by
  have hordered : segments.find? (fun s => s.upper < s.lower) = none := by
    rw [List.find?_eq_none]
    intro s hs
    simpa using h.lower_le_upper s hs
  rw [checkSegments, hordered]
  exact checkJoints_of_climbs h hjoined

/-- Lines that pass the check make a curve. -/
theorem exists_piecewise {segments : List (Segment Rat)} (hne : segments ≠ [])
    (hcheck : checkSegments segments = .ok ()) : ∃ c, piecewise segments = .ok c := by
  cases segments with
  | nil => exact absurd rfl hne
  | cons first rest =>
    rw [piecewise, check, hcheck]
    exact ⟨_, rfl⟩

/-- Anchors that rise are the anchors of a curve. -/
theorem exists_throughPoints {xa ma : Rat} {rest : List (Rat × Rat)}
    (h : RisesFrom xa ma rest) (hma : 0 ≤ ma) :
    ∃ c, throughPoints ((xa, ma) :: rest) = .ok c := by
  obtain ⟨segments, hthrough⟩ := exists_through xa ma rest
  obtain ⟨hne, m, y, top, _, hrises⟩ := h.through hma hthrough
  rw [throughPoints, hthrough]
  exact exists_piecewise hne (checkSegments_of_climbs (hrises.climbs (le_refl m)) hrises.joined)

/-- Anchors of rising satisfaction are the anchors of a curve, wherever they are. -/
theorem exists_throughPoints_of_pairwise {points : List (Rat × Rat)} (hne : points ≠ [])
    (hnonneg : ∀ a ∈ points, 0 ≤ a.2) (hrises : (points.map Prod.snd).Pairwise (· ≤ ·)) :
    ∃ c, throughPoints points = .ok c := by
  cases points with
  | nil => exact absurd rfl hne
  | cons first rest =>
    obtain ⟨x, m⟩ := first
    obtain ⟨segments, hthrough⟩ := exists_through x m rest
    have hthreads := threads_through hthrough
    rw [throughPoints, hthrough]
    exact exists_piecewise hthreads.ne_nil
      (checkSegments_of_climbs (climbs_through hnonneg hrises hthrough) hthreads.joined)

/-! ## Caps -/

/-- The largest cap is below something exactly if all of them are. -/
theorem largestCap_le_iff {first : Segment Rat} {rest : List (Segment Rat)} {m : Rat} :
    largestCap first rest ≤ m ↔ ∀ s ∈ first :: rest, s.cap ≤ m := by
  have hfold (a : Rat) : rest.foldl (fun m s => greatest m s.cap) a ≤ m ↔
      a ≤ m ∧ ∀ s ∈ rest, s.cap ≤ m := by
    induction rest generalizing a with
    | nil => exact (and_iff_left nofun).symm
    | cons s rest ih =>
      rw [List.foldl_cons, ih, greatest_eq_max, max_le_iff, List.forall_mem_cons, and_assoc]
  rw [largestCap, hfold, List.forall_mem_cons]

/-- No cap is above the largest one. -/
theorem cap_le_largestCap {first : Segment Rat} {rest : List (Segment Rat)} :
    ∀ s ∈ first :: rest, s.cap ≤ largestCap first rest :=
  largestCap_le_iff.mp (le_refl _)

/-! ## Sigmoids -/

/-- A sigmoid is drawn wherever its corners are. -/
theorem exists_sCurve (lower peakLeft peakRight upper : Rat) :
    ∃ c, sCurve lower peakLeft peakRight upper = .ok c := by
  obtain ⟨lines, hlines⟩ := exists_sigmoid lower peakLeft peakRight upper
  rw [sCurve, check, hlines]
  exact ⟨_, rfl⟩

end Curve

end GoalBudget
