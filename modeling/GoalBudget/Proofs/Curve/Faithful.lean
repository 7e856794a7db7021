import Mathlib.Order.Monotone.Basic
import GoalBudget.Proofs.Curve.Checked
import GoalBudget.Proofs.Curve.Continuous

/-!
# Lines that pass the check

The check of a chain looks at where its lines start and end and at their caps
(`checkSegments_eq_ok_iff`). It does not look at the lines themselves: one may fall, start below
what was reached before it, be worth less than nothing or more than its cap. Then the satisfaction
is not what a curve that never falls promises, and the lines that a program gets are not the curve.

`WellDrawn` is the test that is missing. It reads the lines from the left as the satisfaction does,
where a line that starts in front of the end of the one before counts from that end on only
(`neverFalls_iff`). A chain that passes the check is faithful exactly if it is well drawn.

Main result: `faithful_iff_wellDrawn`.
-/

namespace GoalBudget

open Segment Curve

/-- Whether the line of a segment lies between zero and the cap at both ends. -/
def Segment.InCap (s : Segment Rat) : Prop :=
  (0 ≤ s.lineAt s.lower ∧ s.lineAt s.lower ≤ s.cap) ∧
    0 ≤ s.lineAt s.upper ∧ s.lineAt s.upper ≤ s.cap

/-- Whether lines never fall behind `front`, where the satisfaction is `level`; in a gap in front of
them it is `held`. -/
def NeverFalls (front level held : Rat) : List (Segment Rat) → Prop
  | [] => True
  | s :: rest =>
    if s.upper ≤ front then NeverFalls front level s.cap rest
    else
      (if front < s.lower then held else level) ≤ s.lineAt (max front s.lower) ∧
        s.lineAt (max front s.lower) ≤ s.lineAt s.upper ∧
        NeverFalls s.upper (s.lineAt s.upper) s.cap rest

/-- Whether the lines of a chain lie between zero and their caps and never fall. -/
def WellDrawn : List (Segment Rat) → Prop
  | [] => True
  | first :: rest =>
    (∀ s ∈ first :: rest, s.InCap) ∧ NeverFalls (first.lower - 1) 0 0 (first :: rest)

instance (s : Segment Rat) : Decidable s.InCap :=
  inferInstanceAs (Decidable (_ ∧ _))

instance decidableNeverFalls (front level held : Rat) :
    (segments : List (Segment Rat)) → Decidable (NeverFalls front level held segments)
  | [] => isTrue trivial
  | s :: rest =>
    have := decidableNeverFalls front level s.cap rest
    have := decidableNeverFalls s.upper (s.lineAt s.upper) s.cap rest
    inferInstanceAs (Decidable (if s.upper ≤ front then _ else _))

instance : (segments : List (Segment Rat)) → Decidable (WellDrawn segments)
  | [] => isTrue trivial
  | _ :: _ => inferInstanceAs (Decidable (_ ∧ _))

/-- A curve of lines as its callers rely on it. -/
structure Curve.Faithful (c : Curve Rat) : Prop where
  bounded : ∀ x, 0 ≤ c.degree x ∧ c.degree x ≤ c.cap
  monotone : Monotone c.degree
  /-- No line leaves the room between zero and its cap. -/
  lines : ∀ s ∈ c.segments, ∀ x, s.Covers x → 0 ≤ s.lineAt x ∧ s.lineAt x ≤ s.cap
  /-- Being held there changes no line. -/
  agrees : ∀ s ∈ c.segments, ∀ x, s.Covers x → s.valueAt x = s.lineAt x
  /-- The satisfaction with an amount is that of the first line that does not end before it. -/
  reads : ∀ x, ∀ s ∈ c.segments.find? (fun s => x ≤ s.upper), s.lower ≤ x →
    c.degree x = s.lineAt x

/-- Whether a satisfaction never falls behind `front` and not below `level`. -/
def RisesBehind (f : Rat → Rat) (front level : Rat) : Prop :=
  ∀ x y, front < x → x ≤ y → level ≤ f x ∧ f x ≤ f y

/-- Whether a satisfaction never falls behind `front` up to `b` and not below `level`. -/
def RisesUpTo (f : Rat → Rat) (front level b : Rat) : Prop :=
  ∀ x y, front < x → x ≤ y → y ≤ b → level ≤ f x ∧ f x ≤ f y

/-! ## What the check asks for -/

/-- The joints pass if lines meet and caps do not fall, between each line and the next. -/
theorem checkJoints_eq_ok_iff {segments : List (Segment Rat)} :
    checkJoints segments = .ok () ↔
      segments.IsChain fun s t => meets s.upper t.lower = true ∧ s.cap ≤ t.cap := by
  induction segments with
  | nil => exact ⟨fun _ => .nil, fun _ => rfl⟩
  | cons s rest ih =>
    cases rest with
    | nil => exact ⟨fun _ => .singleton s, fun _ => rfl⟩
    | cons t rest =>
      rw [List.isChain_cons_cons, ← ih, checkJoints]
      by_cases hmeets : meets s.upper t.lower = true
      · by_cases hcap : t.cap < s.cap
        · simp [hmeets, hcap]
        · simp [hmeets, hcap, not_lt.mp hcap]
      · simp [hmeets]

/-- No more than the ends of the lines and their caps is looked at. -/
theorem checkSegments_eq_ok_iff {segments : List (Segment Rat)} :
    checkSegments segments = .ok () ↔ (∀ s ∈ segments, s.lower ≤ s.upper) ∧
      segments.IsChain fun s t => meets s.upper t.lower = true ∧ s.cap ≤ t.cap := by
  rw [checkSegments]
  cases hfind : segments.find? fun s => decide (s.upper < s.lower) with
  | some s =>
    have hmem := List.mem_of_find?_eq_some hfind
    have hreversed : s.upper < s.lower := by simpa using List.find?_some hfind
    constructor
    · intro h
      cases h
    · rintro ⟨horder, _⟩
      exact absurd (horder s hmem) (not_le.mpr hreversed)
  | none =>
    have horder : ∀ s ∈ segments, s.lower ≤ s.upper := by
      simpa using List.find?_eq_none.mp hfind
    rw [and_iff_right horder]
    exact checkJoints_eq_ok_iff

/-! ## Lines -/

namespace Segment

variable {s : Segment Rat} {a b x y : Rat}

/-- A line that is not lower at the right of two points does not fall. -/
theorem slope_nonneg_of_le (hab : a < b) (h : s.lineAt a ≤ s.lineAt b) : 0 ≤ s.slope := by
  have hrise : 0 ≤ s.slope * (b - a) := by
    simp only [lineAt] at h
    linarith
  exact nonneg_of_mul_nonneg_left hrise (sub_pos.mpr hab)

/-- A line that does not fall from one amount to another does not fall in between. -/
theorem lineAt_le_of_between (h : s.lineAt a ≤ s.lineAt b) (hax : a ≤ x) (hxy : x ≤ y)
    (hyb : y ≤ b) : s.lineAt x ≤ s.lineAt y := by
  rcases (hax.trans (hxy.trans hyb)).eq_or_lt with rfl | hlt
  · rw [le_antisymm hxy (hyb.trans hax)]
  · exact lineAt_mono (slope_nonneg_of_le hlt h) hxy

/-- Between its ends a line is between zero and the cap too. -/
theorem InCap.of_covers (h : s.InCap) (hx : s.Covers x) : 0 ≤ s.lineAt x ∧ s.lineAt x ≤ s.cap := by
  obtain ⟨hlower, hupper⟩ := h
  rcases le_total 0 s.slope with hrises | hfalls
  · exact ⟨hlower.1.trans (lineAt_mono hrises hx.1), (lineAt_mono hrises hx.2).trans hupper.2⟩
  · have hanti {a b : Rat} (hab : a ≤ b) : s.lineAt b ≤ s.lineAt a :=
      add_le_add_left (mul_le_mul_of_nonpos_left hab hfalls) _
    exact ⟨hupper.1.trans (hanti hx.2), (hanti hx.1).trans hlower.2⟩

/-- On a line that stays between zero and its cap nothing is cut off. -/
theorem InCap.valueAt_eq (h : s.InCap) (hx : s.Covers x) : s.valueAt x = s.lineAt x :=
  valueAt_eq_lineAt (h.of_covers hx).1 (h.of_covers hx).2

theorem InCap.cap_nonneg (h : s.InCap) : 0 ≤ s.cap := h.1.1.trans h.1.2

end Segment

namespace Curve

/-! ## Reading lines from the left -/

section
variable {s : Segment Rat} {segments : List (Segment Rat)} {r x : Rat}

/-- By induction on the lines: all in front of the one that is read end before the amount. -/
theorem chainDegree_of_find? (horder : ∀ s ∈ segments, s.lower ≤ s.upper)
    (hread : segments.find? (fun s => x ≤ s.upper) = some s) (hlower : s.lower ≤ x) :
    chainDegree r segments x = s.valueAt x := by
  induction segments generalizing r with
  | nil => cases hread
  | cons t rest ih =>
    obtain ⟨hfirst, hrest⟩ := List.forall_mem_cons.mp horder
    by_cases hupper : x ≤ t.upper
    · rw [List.find?_cons_of_pos (by simpa using hupper)] at hread
      cases hread
      exact chainDegree_of_covers ⟨hlower, hupper⟩
    · rw [List.find?_cons_of_neg (by simpa using hupper)] at hread
      rw [chainDegree_of_gt hfirst (not_le.mp hupper)]
      exact ih hrest hread

end

section
variable {f g : Rat → Rat} {front level b : Rat}

theorem risesBehind_congr (h : ∀ x, front < x → f x = g x) :
    RisesBehind f front level ↔ RisesBehind g front level := by
  refine forall₄_congr fun x y hx hxy => ?_
  rw [h x hx, h y (hx.trans_le hxy)]

/-- What never falls up to `b` and never falls behind it never falls. -/
theorem risesBehind_iff_upTo (hb : front < b) :
    RisesBehind f front level ↔ RisesUpTo f front level b ∧ RisesBehind f b (f b) := by
  constructor
  · intro h
    refine ⟨fun x y hx hxy _ => h x y hx hxy, fun x y hx hxy => ?_⟩
    exact ⟨(h b x hb hx.le).2, (h x y (hb.trans hx) hxy).2⟩
  · rintro ⟨hup, hbehind⟩ x y hx hxy
    rcases le_or_gt y b with hy | hy
    · exact hup x y hx hxy hy
    · rcases le_or_gt x b with hxb | hxb
      · obtain ⟨hlevel, hrise⟩ := hup x b hx hxb (le_refl b)
        exact ⟨hlevel, hrise.trans (hbehind y y hy (le_refl y)).1⟩
      · obtain ⟨hlevel, hrise⟩ := hup b b hb (le_refl b) (le_refl b)
        exact ⟨hlevel.trans (hbehind x y hxb hxy).1, (hbehind x y hxb hxy).2⟩

end

section
variable {s : Segment Rat} {rest segments : List (Segment Rat)} {front level held : Rat}

/-- Up to the end of a line that starts in front. -/
theorem risesUpTo_of_le (hcap : s.InCap) (hlower : s.lower ≤ front) (hfront : front < s.upper) :
    RisesUpTo (chainDegree held (s :: rest)) front level s.upper ↔
      level ≤ s.lineAt front ∧ s.lineAt front ≤ s.lineAt s.upper := by
  have hline {x : Rat} (hx : front < x) (hx' : x ≤ s.upper) :
      chainDegree held (s :: rest) x = s.lineAt x := by
    have hcovers : s.Covers x := ⟨hlower.trans hx.le, hx'⟩
    rw [chainDegree_of_covers hcovers, hcap.valueAt_eq hcovers]
  constructor
  · intro h
    have hon {x : Rat} (hx : front < x) (hx' : x < s.upper) :
        level ≤ s.lineAt x ∧ s.lineAt x ≤ s.lineAt s.upper := by
      rw [← hline hx hx'.le, ← hline hfront (le_refl _)]
      exact h x s.upper hx hx'.le (le_refl _)
    refine ⟨le_lineAt_of_forall_gt hfront fun x hx hx' => (hon hx hx').1, ?_⟩
    -- the line does not fall behind `front`, so it does not fall from there either
    obtain ⟨x, hx, hx'⟩ := exists_between hfront
    exact lineAt_mono (slope_nonneg_of_le hx' (hon hx hx').2) hfront.le
  · rintro ⟨hstart, hend⟩ x y hx hxy hy
    rw [hline hx (hxy.trans hy), hline (hx.trans_le hxy) hy]
    exact ⟨hstart.trans (lineAt_le_of_between hend (le_refl _) hx.le (hxy.trans hy)),
      lineAt_le_of_between hend hx.le hxy hy⟩

/-- Up to the end of a line behind a gap, in which the satisfaction is held. -/
theorem risesUpTo_of_gap (horder : s.lower ≤ s.upper) (hcap : s.InCap) (hlevel : level ≤ held)
    (hgap : front < s.lower) :
    RisesUpTo (chainDegree held (s :: rest)) front level s.upper ↔
      held ≤ s.lineAt s.lower ∧ s.lineAt s.lower ≤ s.lineAt s.upper := by
  have hheld {x : Rat} (hx : x < s.lower) : chainDegree held (s :: rest) x = held :=
    chainDegree_of_lt hx
  have hline {x : Rat} (hx : s.lower ≤ x) (hx' : x ≤ s.upper) :
      chainDegree held (s :: rest) x = s.lineAt x := by
    rw [chainDegree_of_covers ⟨hx, hx'⟩, hcap.valueAt_eq ⟨hx, hx'⟩]
  constructor
  · intro h
    -- A point inside the gap holds the level of before, so the line starts no lower.
    obtain ⟨x, hx, hx'⟩ := exists_between hgap
    have hstart := (h x s.lower hx hx'.le horder).2
    have hend := (h s.lower s.upper hgap horder (le_refl _)).2
    rw [hheld hx', hline (le_refl _) horder] at hstart
    rw [hline (le_refl _) horder, hline horder (le_refl _)] at hend
    exact ⟨hstart, hend⟩
  · rintro ⟨hstart, hend⟩ x y hx hxy hy
    -- Both in the gap, one on each side of its end, or both on the line.
    rcases lt_or_ge x s.lower with hxgap | hxline
    · rw [hheld hxgap]
      rcases lt_or_ge y s.lower with hygap | hyline
      · rw [hheld hygap]
        exact ⟨hlevel, le_refl held⟩
      · rw [hline hyline hy]
        exact ⟨hlevel, hstart.trans (lineAt_le_of_between hend (le_refl _) hyline hy)⟩
    · rw [hline hxline (hxy.trans hy), hline (hxline.trans hxy) hy]
      have hon := lineAt_le_of_between hend (le_refl _) hxline (hxy.trans hy)
      exact ⟨hlevel.trans (hstart.trans hon), lineAt_le_of_between hend hxline hxy hy⟩

/-- Up to the end of a line behind `front`. -/
theorem risesUpTo_iff (horder : s.lower ≤ s.upper) (hcap : s.InCap) (hlevel : level ≤ held)
    (hfront : front < s.upper) :
    RisesUpTo (chainDegree held (s :: rest)) front level s.upper ↔
      (if front < s.lower then held else level) ≤ s.lineAt (max front s.lower) ∧
        s.lineAt (max front s.lower) ≤ s.lineAt s.upper := by
  by_cases hgap : front < s.lower
  · rw [if_pos hgap, max_eq_right hgap.le]
    exact risesUpTo_of_gap horder hcap hlevel hgap
  · rw [if_neg hgap, max_eq_left (not_lt.mp hgap)]
    exact risesUpTo_of_le hcap (not_lt.mp hgap) hfront

/-- By induction on the lines. One that ends in front of what was read already counts with its cap
only, from the end of any other one the lines behind it go on. -/
theorem neverFalls_iff (hlines : ∀ s ∈ segments, s.lower ≤ s.upper ∧ s.InCap)
    (hcaps : (held :: segments.map (·.cap)).IsChain (· ≤ ·)) (hlevel : level ≤ held) :
    NeverFalls front level held segments ↔
      RisesBehind (chainDegree held segments) front level := by
  induction segments generalizing front level held with
  | nil => exact iff_of_true trivial fun x y _ _ => ⟨hlevel, le_refl held⟩
  | cons s rest ih =>
    obtain ⟨⟨horder, hcap⟩, hrest⟩ := List.forall_mem_cons.mp hlines
    obtain ⟨hheld, hcaps⟩ := List.isChain_cons_cons.mp hcaps
    have hbehind (x : Rat) (hx : s.upper < x) :
        chainDegree held (s :: rest) x = chainDegree s.cap rest x := chainDegree_of_gt horder hx
    rw [NeverFalls]
    split
    -- The segment lies behind the front already and is never read.
    next hpassed =>
      rw [ih hrest hcaps (hlevel.trans hheld)]
      exact risesBehind_congr fun x hx => (hbehind x (hpassed.trans_lt hx)).symm
    next hfront =>
      have hcovers : s.Covers s.upper := ⟨horder, le_refl _⟩
      have hend : chainDegree held (s :: rest) s.upper = s.lineAt s.upper := by
        rw [chainDegree_of_covers hcovers, hcap.valueAt_eq hcovers]
      rw [ih hrest hcaps hcap.2.2, risesBehind_iff_upTo (not_le.mp hfront),
        risesUpTo_iff horder hcap hlevel (not_le.mp hfront), hend, and_assoc,
        risesBehind_congr hbehind]

/-- A chain is well drawn exactly if its lines are between zero and their caps and the satisfaction
along it never falls. -/
theorem wellDrawn_iff {first : Segment Rat} (horder : ∀ s ∈ first :: rest, s.lower ≤ s.upper)
    (hcaps : (first :: rest).IsChain fun s t => s.cap ≤ t.cap) :
    WellDrawn (first :: rest) ↔
      (∀ s ∈ first :: rest, s.InCap) ∧ Monotone (chainDegree 0 (first :: rest)) := by
  refine and_congr_right fun hin => ?_
  have hfirst : 0 ≤ first.cap := (hin first (List.mem_cons_self ..)).cap_nonneg
  have hbefore {x : Rat} (hx : x < first.lower) : chainDegree 0 (first :: rest) x = 0 :=
    chainDegree_of_lt hx
  have hnonneg (x : Rat) : 0 ≤ chainDegree 0 (first :: rest) x :=
    chainDegree_nonneg (le_refl 0) fun s hs => (hin s hs).cap_nonneg
  rw [neverFalls_iff (fun s hs => ⟨horder s hs, hin s hs⟩)
    (List.isChain_cons_cons.mpr ⟨hfirst, (List.isChain_map _).mpr hcaps⟩) (le_refl 0)]
  constructor
  · intro hrises x y hxy
    rcases lt_or_ge (first.lower - 1) x with hx | hx
    · exact (hrises x y hx hxy).2
    · rw [hbefore (by linarith)]
      exact hnonneg y
  · exact fun hmonotone x y _ hxy => ⟨hnonneg x, hmonotone hxy⟩

end

/-! ## Curves -/

/-- A chain of lines that passes the check counts as a curve that never falls. It is one, and its
lines are the curve, exactly if they are well drawn. -/
theorem faithful_iff_wellDrawn {c : Curve Rat} {segments : List (Segment Rat)}
    (h : piecewise segments = .ok c) :
    c.isMonotone = true ∧ (c.Faithful ↔ WellDrawn segments) := by
  obtain ⟨hshape, rfl, hne, hcheck⟩ := piecewise_eq_ok h
  obtain ⟨horder, hchain⟩ := checkSegments_eq_ok_iff.mp hcheck
  have hdegree := degree_eq_chainDegree (.inl hshape)
  refine ⟨isMonotone_of_segments (.inl hshape), ?_⟩
  obtain ⟨first, rest, hsegments⟩ := List.exists_cons_of_ne_nil hne
  have hcap : c.cap = largestCap first rest := by rw [Curve.cap, hsegments]
  -- The scan that decides decides a statement about the degree function alone.
  have hiff : WellDrawn c.segments ↔ (∀ s ∈ c.segments, s.InCap) ∧ Monotone c.degree := by
    rw [hdegree]
    rw [hsegments] at horder hchain ⊢
    exact wellDrawn_iff horder (hchain.imp fun _ _ hst => hst.2)
  rw [hiff]
  constructor
  -- The ends of a segment are two of its points.
  · intro hfaithful
    refine ⟨fun s hs => ?_, hfaithful.monotone⟩
    have hlines := hfaithful.lines s hs
    exact ⟨hlines s.lower ⟨le_refl _, horder s hs⟩, hlines s.upper ⟨horder s hs, le_refl _⟩⟩
  · rintro ⟨hin, hmonotone⟩
    constructor
    case bounded =>
      intro x
      rw [hdegree]
      -- Zero below because no cap is negative, the largest cap above because none exceeds it.
      refine ⟨chainDegree_nonneg (le_refl 0) fun s hs => (hin s hs).cap_nonneg, ?_⟩
      rw [hcap]
      rw [hsegments] at hin ⊢
      have hcaps : ∀ s ∈ first :: rest, s.cap ≤ largestCap first rest := cap_le_largestCap
      have hfirst := (hin first (List.mem_cons_self ..)).cap_nonneg
      exact chainDegree_le (hfirst.trans (hcaps first (List.mem_cons_self ..))) hcaps
    case monotone => exact hmonotone
    case lines => exact fun s hs x hx => (hin s hs).of_covers hx
    case agrees => exact fun s hs x hx => (hin s hs).valueAt_eq hx
    case reads =>
      intro x s hread hlower
      have hmem := List.mem_of_find?_eq_some hread
      have hupper : x ≤ s.upper := by simpa using List.find?_some hread
      rw [hdegree, chainDegree_of_find? horder hread hlower,
        (hin s hmem).valueAt_eq ⟨hlower, hupper⟩]

/-- An overlap and a gap, each too small to be refused. -/
theorem faithful_iff_wellDrawn_nearby :
    ∃ c, piecewise [⟨0, 10, 1 / 10, 0, 2⟩, ⟨10 - 1e-10, 20, 1 / 20, 1 / 2, 2⟩,
        ⟨20 + 1e-10, 30, 0, 2, 2⟩] = .ok c ∧
      c.isMonotone = true ∧ c.Faithful := by
  have haccepted : (piecewise [(⟨0, 10, 1 / 10, 0, 2⟩ : Segment Rat),
      ⟨10 - 1e-10, 20, 1 / 20, 1 / 2, 2⟩, ⟨20 + 1e-10, 30, 0, 2, 2⟩]).isOk = true := by
    decide +kernel
  obtain ⟨c, hc⟩ := exists_of_isOk haccepted
  obtain ⟨hmonotone, hfaithful⟩ := faithful_iff_wellDrawn hc
  exact ⟨c, hc, hmonotone, hfaithful.mpr (by decide +kernel)⟩

/-- A line that falls, one that ends above its cap and one below zero all pass the check. -/
theorem unfaithful_lines_accepted :
    (∃ c : Curve Rat, piecewise [⟨0, 10, -1 / 10, 1, 1⟩] = .ok c ∧ c.isMonotone = true ∧
      c.degree 0 = 1 ∧ c.degree 10 = 0) ∧
    (∃ c : Curve Rat, piecewise [⟨0, 10, 1 / 2, 0, 1⟩] = .ok c ∧ c.isMonotone = true ∧
      c.degree 10 = 1 ∧ c.segments.map (·.lineAt 10) = [5]) ∧
    ∃ c : Curve Rat, piecewise [⟨0, 10, 0, -1, -1⟩] = .ok c ∧ c.isMonotone = true ∧
      c.degree 5 = -1 := by
  refine ⟨⟨_, rfl, rfl, ?_⟩, ⟨_, rfl, rfl, ?_⟩, ⟨_, rfl, rfl, ?_⟩⟩
  · decide +kernel
  · decide +kernel
  · decide +kernel

end Curve

end GoalBudget
