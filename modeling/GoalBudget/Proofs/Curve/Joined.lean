import Mathlib.Data.List.Chain
import GoalBudget.Proofs.Curve.Chain

/-!
# Lines without a gap

The lines through anchors follow one another without a gap, wherever the anchors are: one that does
not advance is skipped, and the next line starts where the one before it ended (`onward_chain`). If
no anchor advances there is a single line of no width. Either way the lines start at the first
anchor and each one reaches further than those before (`threads_through`, `threads_sigmoid`).

Three conditions are told apart. `Joined` is that each line starts where the one before ends,
`Onward` that in addition every line has a width and the first starts at a given amount, and
`Threads` is what remains of that if the one line of no width is allowed, too. A chain is needed in
all three forms: joined to pass the check, onward to have its last line to itself, and threaded to
be evaluated at its ends.

The second half has the anchors of a sigmoid as a list of their own (`sigmoidAnchors`), between the
steep part that the peaks describe and what replaces them.
-/

namespace GoalBudget

open Segment

/-- Lines of which each starts where the one before ends. -/
def Joined (segments : List (Segment Rat)) : Prop :=
  segments.IsChain fun s t => s.upper = t.lower

/-- Lines of some width from an amount on, each of which starts where the one before ends. -/
inductive Onward : Rat → List (Segment Rat) → Prop where
  | nil (a : Rat) : Onward a []
  | cons {a : Rat} {s : Segment Rat} {rest : List (Segment Rat)} (hlower : s.lower = a)
      (hwidth : a < s.upper) (hrest : Onward s.upper rest) : Onward a (s :: rest)

/-- Lines without a gap from an amount on, each of which reaches further than those before. -/
structure Threads (a : Rat) (segments : List (Segment Rat)) : Prop where
  head : ∃ first, segments.head? = some first ∧ first.lower = a
  joined : Joined segments
  ends : segments.Pairwise fun s t => s.upper < t.upper

/-- A line joins the rest if the first line of the rest starts where it ends. -/
theorem joined_cons {s : Segment Rat} {rest : List (Segment Rat)} :
    Joined (s :: rest) ↔ (∀ t ∈ rest.head?, s.upper = t.lower) ∧ Joined rest :=
  List.isChain_cons

/-- A chain that rises has no gap. -/
theorem Rises.joined {x m y top : Rat} {segments : List (Segment Rat)}
    (h : Rises x m segments y top) : Joined segments := by
  induction h with
  | nil => exact .nil
  | cons _ _ _ _ _ hrest ih =>
    refine joined_cons.mpr ⟨?_, ih⟩
    intro t ht
    cases hrest with
    | nil => cases ht
    | cons hlower _ _ _ _ _ =>
      cases ht
      exact hlower.symm

namespace Onward

variable {a : Rat} {segments : List (Segment Rat)}

theorem head_lower (h : Onward a segments) : ∀ first ∈ segments.head?, first.lower = a := by
  intro first hfirst
  cases h with
  | nil => cases hfirst
  | cons hlower _ _ =>
    cases hfirst
    exact hlower

/-- Every line reaches beyond the start. -/
theorem lt_upper (h : Onward a segments) : ∀ s ∈ segments, a < s.upper := by
  induction h with
  | nil => exact nofun
  | cons _ hwidth _ ih =>
    intro s hs
    rcases List.mem_cons.mp hs with rfl | hs
    · exact hwidth
    · exact hwidth.trans (ih s hs)

/-- Such lines have no gap. -/
theorem joined (h : Onward a segments) : Joined segments := by
  induction h with
  | nil => exact .nil
  | cons _ _ hrest ih => exact joined_cons.mpr ⟨fun t ht => (hrest.head_lower t ht).symm, ih⟩

/-- Each line reaches further than those before. -/
theorem ends (h : Onward a segments) : segments.Pairwise fun s t => s.upper < t.upper := by
  induction h with
  | nil => exact .nil
  | cons _ _ hrest ih => exact List.pairwise_cons.mpr ⟨hrest.lt_upper, ih⟩

/-- Lines that go onward thread the amounts from the start. -/
theorem threads (h : Onward a segments) (hne : segments ≠ []) : Threads a segments := by
  obtain ⟨first, hfirst⟩ := Option.isSome_iff_exists.mp (List.isSome_head?.mpr hne)
  exact ⟨⟨first, hfirst, h.head_lower first hfirst⟩, h.joined, h.ends⟩

end Onward

namespace Threads

variable {a : Rat} {segments : List (Segment Rat)}

/-- There is at least one line. -/
theorem ne_nil (h : Threads a segments) : segments ≠ [] := by
  rintro rfl
  obtain ⟨_, hfirst, _⟩ := h.head
  cases hfirst

/-- One line threads the amounts from its start, whatever its width. -/
theorem single {s : Segment Rat} (h : s.lower = a) : Threads a [s] :=
  ⟨⟨s, rfl, h⟩, .singleton s, List.pairwise_singleton _ s⟩

end Threads

/-! ## Lines through anchors -/

section
variable {rest : List (Rat × Rat)} {x xa ma m : Rat}

/-- By induction on the anchors. Where one advances, a line from the anchor before to it comes in
front of the lines from there on. -/
theorem onward_chain (xa ma : Rat) (rest : List (Rat × Rat)) :
    Onward xa (chain xa ma rest).1 := by
  induction rest generalizing xa ma with
  | nil => exact .nil xa
  | cons anchor rest ih =>
    obtain ⟨xb, mb⟩ := anchor
    by_cases hx : xb ≤ xa
    · rw [chain_skip hx]
      exact ih xa (max ma mb)
    · rw [chain_advance (not_le.mp hx)]
      exact .cons rfl (not_le.mp hx) (ih xb mb)

/-- Where no anchor advances, the chain stands at the first one in the end. -/
theorem chain_stays (h : (chain xa ma rest).1 = []) : (chain xa ma rest).2.1 = xa := by
  induction rest generalizing ma with
  | nil => rfl
  | cons anchor rest ih =>
    obtain ⟨xb, mb⟩ := anchor
    by_cases hx : xb ≤ xa
    · rw [chain_skip hx] at h ⊢
      exact ih h
    · rw [chain_advance (not_le.mp hx)] at h
      cases h

/-- The lines through anchors start at the first of them. -/
theorem threads_through {segments : List (Segment Rat)}
    (h : Segment.through ((x, m) :: rest) = .ok segments) : Threads x segments := by
  have honward := onward_chain x m rest
  rw [Segment.through] at h
  split at h
  next xa ma hchain =>
    cases h
    have hstays : xa = x := by
      have hx := chain_stays (congrArg Prod.fst hchain)
      rwa [hchain] at hx
    rw [hstays]
    exact .single rfl
  next lines last hne hchain =>
    cases h
    rw [hchain] at honward
    refine honward.threads ?_
    rintro rfl
    exact hne _ _ rfl rfl

end

/-! ## Sigmoids -/

section
variable {lower left right upper : Rat}

/-- The anchors of a sigmoid that is steep between `left` and `right`. -/
def sigmoidAnchors (lower left right upper : Rat) : List (Rat × Rat) :=
  let points := (sigmoidPoints lower left right upper).zip sigmoidLevels
  if upper < upper * 1.2 then points ++ [(upper * 1.2, 1.05)] else points

/-- Between a steep part the right way round and the ends of the range the anchors advance. -/
theorem isChain_sigmoidAnchors (hrise : lower < left) (hsteep : left < right)
    (hend : right < upper) : (sigmoidAnchors lower left right upper).IsChain Advances := by
  have hpoints : ((sigmoidPoints lower left right upper).zip sigmoidLevels).IsChain Advances := by
    simp only [sigmoidPoints, sigmoidLevels, List.zip_cons_cons, List.zip_nil_left,
      List.isChain_cons_cons, Advances]
    norm_num
    refine ⟨?_, ?_, ?_, ?_, ?_, ?_, ?_⟩ <;> linarith
  rw [sigmoidAnchors]
  split
  next hsurplus =>
    -- one more anchor for the surplus, behind all others
    refine hpoints.append (.singleton _) ?_
    intro last hlast next hnext
    cases hlast
    cases hnext
    exact ⟨hsurplus, by norm_num⟩
  next => exact hpoints

/-- The satisfactions of the anchors are not negative and rise, wherever the anchors are. -/
theorem levels_sigmoidAnchors (lower left right upper : Rat) :
    (∀ a ∈ sigmoidAnchors lower left right upper, 0 ≤ a.2) ∧
      ((sigmoidAnchors lower left right upper).map Prod.snd).Pairwise (· ≤ ·) := by
  have hlevels : ∃ levels, (sigmoidAnchors lower left right upper).map Prod.snd = levels ∧
      (∀ m ∈ levels, 0 ≤ m) ∧ levels.Pairwise (· ≤ ·) := by
    rw [sigmoidAnchors]
    split
    next => exact ⟨[0, 0.05, 0.15, 0.35, 0.65, 0.85, 0.95, 1, 1.05], rfl, by decide +kernel⟩
    next => exact ⟨[0, 0.05, 0.15, 0.35, 0.65, 0.85, 0.95, 1], rfl, by decide +kernel⟩
  obtain ⟨levels, rfl, hnonneg, hrises⟩ := hlevels
  exact ⟨fun a ha => hnonneg a.2 (List.mem_map_of_mem ha), hrises⟩

/-- Where the steep part of a sigmoid begins. -/
def steepStart (lower peakLeft upper : Rat) : Rat :=
  if peakLeft ≤ lower ∨ upper ≤ peakLeft then lower + 0.3 * (upper - lower) else peakLeft

/-- Where the steep part of a sigmoid that begins at `left` ends. -/
def steepEnd (lower left peakRight upper : Rat) : Rat :=
  if peakRight ≤ left ∨ upper ≤ peakRight then lower + 0.7 * (upper - lower) else peakRight

/-- The lines of a sigmoid are those through its anchors. -/
theorem sigmoid_eq_through (h : lower < upper) (peakLeft peakRight : Rat) :
    sigmoid lower peakLeft peakRight upper =
      Segment.through (sigmoidAnchors lower (steepStart lower peakLeft upper)
        (steepEnd lower (steepStart lower peakLeft upper) peakRight upper) upper) := by
  rw [sigmoid, if_neg (not_le.mpr h)]
  rfl

/-- The first anchor of a sigmoid is at its lower end, at zero. -/
theorem exists_sigmoidAnchors (lower left right upper : Rat) :
    ∃ rest, sigmoidAnchors lower left right upper = (lower, 0) :: rest := by
  rw [sigmoidAnchors]
  split
  next => exact ⟨_, rfl⟩
  next => exact ⟨_, rfl⟩

/-- A sigmoid that does not end before it starts. -/
theorem threads_sigmoid {peakLeft peakRight : Rat} {segments : List (Segment Rat)}
    (hle : lower ≤ upper) (h : sigmoid lower peakLeft peakRight upper = .ok segments) :
    Threads lower segments := by
  rcases hle.eq_or_lt with rfl | hlt
  · rw [sigmoid, if_pos (le_refl lower)] at h
    cases h
    exact .single rfl
  · rw [sigmoid_eq_through hlt] at h
    obtain ⟨rest, hanchors⟩ := exists_sigmoidAnchors lower (steepStart lower peakLeft upper)
      (steepEnd lower (steepStart lower peakLeft upper) peakRight upper) upper
    rw [hanchors] at h
    exact threads_through h

end

end GoalBudget
