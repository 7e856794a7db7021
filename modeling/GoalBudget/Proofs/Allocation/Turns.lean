import GoalBudget.Proofs.Allocation.Conservation
import Mathlib.Algebra.Module.Submodule.Lattice
import Mathlib.Computability.Primrec.List
import Mathlib.Data.List.Permutation

/-!
# In what turn a deficit is trimmed

A phase cuts the larger excess first, of equal ones that with the smaller id, `CutBefore`. The ids
differ, so this leaves no choice (`pairwise_excesses`). Once a cut is less than the excess nothing
is needed any more, so an entry is only cut when all before it are down to their floors (`Phase`).

For the same reason a phase only takes something when those before it have taken all they can, and
what has taken all leaves every entry at its floor or below it (`TrimmedTo.eq_of_lt`).

Main result: `recoverDeficit_in_turn`, exactly what is needed is trimmed, or all that can be: the
goals down to their targets, then the flexible categories down to their minimums, then the goals.

The excesses are those at the start of a phase. The goals are gone through twice, and the second
time their order can be another one, since the first phase has cut the excess over the targets and
the third looks at the whole amounts.
-/

namespace GoalBudget

variable {amount t : Rat} {l floors : Ledger Rat} {excess : List (String × Rat)}
  {before after : Ledger Rat × Rat} {key : String} {x y : Rat}

/-! ## The order of the cuts -/

/-- Whether an excess has its turn before another: the larger one, of equal ones that with the
smaller id. -/
def CutBefore (e e' : String × Rat) : Prop := e'.2 < e.2 ∨ e.2 = e'.2 ∧ e.1 < e'.1

theorem CutBefore.asymm {e e' : String × Rat} (h : CutBefore e e') : ¬CutBefore e' e := by
  rintro (hlt | ⟨heq, hlt⟩)
  · rcases h with hgt | ⟨heq, _⟩
    · exact lt_asymm hlt hgt
    · exact hlt.ne heq
  · rcases h with hgt | ⟨_, hgt⟩
    · exact hgt.ne heq
    · exact String.lt_asymm hlt hgt

/-- The larger one does, and of equal ones that with the smaller id. -/
theorem cutFirst_iff {e e' : String × Rat} :
    cutFirst e e' = true ↔ e'.2 < e.2 ∨ e.2 = e'.2 ∧ e.1 ≤ e'.1 := by
  simp [cutFirst]

theorem cutFirst_trans (e e' e'' : String × Rat) (h : cutFirst e e' = true)
    (h' : cutFirst e' e'' = true) : cutFirst e e'' = true := by
  rw [cutFirst_iff] at h h' ⊢
  rcases h with hlt | ⟨heq, hle⟩
  · rcases h' with hlt' | ⟨heq', _⟩
    · exact .inl (hlt'.trans hlt)
    · exact .inl (heq' ▸ hlt)
  · rcases h' with hlt' | ⟨heq', hle'⟩
    · exact .inl (heq ▸ hlt')
    · exact .inr ⟨heq.trans heq', String.le_trans hle hle'⟩

theorem cutFirst_total (e e' : String × Rat) : (cutFirst e e' || cutFirst e' e) = true := by
  rw [Bool.or_eq_true, cutFirst_iff, cutFirst_iff]
  rcases lt_trichotomy e.2 e'.2 with hlt | heq | hlt
  · exact .inr (.inl hlt)
  · rcases String.le_total e.1 e'.1 with hle | hle
    · exact .inl (.inr ⟨heq, hle⟩)
    · exact .inr (.inr ⟨heq.symm, hle⟩)
  · exact .inl (.inl hlt)

/-- The excesses of a phase stand in the order of their turns. -/
theorem pairwise_excesses : (excesses floors l).Pairwise CutBefore := by
  have hsorted : (excesses floors l).Pairwise fun e e' => cutFirst e e' = true :=
    List.pairwise_mergeSort cutFirst_trans cutFirst_total _
  have hdistinct : (excesses floors l).Pairwise fun e e' => e.1 ≠ e'.1 :=
    List.pairwise_map.mp excesses_nodup
  refine (hsorted.and hdistinct).imp fun {e e'} h => ?_
  rcases cutFirst_iff.mp h.1 with hlt | ⟨heq, hle⟩
  · exact .inl hlt
  · refine .inr ⟨heq, ?_⟩
    by_contra hnot
    exact h.2 (String.le_antisymm hle (String.not_lt.mp hnot))

/-! ## A run of cuts -/

/-- Once enough is trimmed nothing more is cut. -/
theorem foldl_trimStep_of_enough (h : amount ≤ t) :
    excess.foldl (trimStep amount) (l, t) = (l, t) := by
  induction excess with
  | nil => rfl
  | cons e rest ih =>
    rw [List.foldl_cons, trimStep, if_pos h]
    exact ih

theorem Trimmed.get?_eq (h : Trimmed amount excess before after)
    (hkey : key ∉ excess.map Prod.fst) : after.1.get? key = before.1.get? key := by
  cases hx : before.1.get? key with
  | none =>
    rw [Ledger.get?_eq_none_iff] at hx ⊢
    rwa [h.keys]
  | some x =>
    obtain ⟨y, hy⟩ := Ledger.mem_keys_iff.mp (h.keys ▸ Ledger.mem_keys_of_get? hx)
    have hge := h.ge key x y hx hy
    rw [Ledger.lookup_eq_none_of_not_mem hkey, Option.getD_none, sub_zero] at hge
    rw [hy, le_antisymm (h.le key x y hx hy) hge]

/-- Whether an entry gives up all of its excess before another is cut. -/
def YieldsBefore (l l' : Ledger Rat) (e e' : String × Rat) : Prop :=
  l'.get? e'.1 ≠ l.get? e'.1 → l'.get? e.1 = (l.get? e.1).map (· - e.2)

/-- In a run of cuts an entry is cut only when those before it have given up all of their excess. By
induction on the entries: a cut that is not all of an excess ends the run. -/
theorem foldl_trimStep_in_turn (ht : t ≤ amount) (hnodup : (excess.map Prod.fst).Nodup)
    (hkeys : ∀ e ∈ excess, e.1 ∈ l.keys) (hpos : ∀ e ∈ excess, 0 ≤ e.2) :
    excess.Pairwise (YieldsBefore l (excess.foldl (trimStep amount) (l, t)).1) := by
  induction excess generalizing l t with
  | nil => exact .nil
  | cons e rest ih =>
    rw [List.map_cons, List.nodup_cons] at hnodup
    have he : 0 ≤ e.2 := hpos e (List.mem_cons_self ..)
    have hrestPos : ∀ p ∈ rest, 0 ≤ p.2 := fun p hp => hpos p (List.mem_cons_of_mem _ hp)
    have hrestKeys : ∀ p ∈ rest, p.1 ∈ (l.modify e.1 (· - min e.2 (amount - t))).keys := by
      intro p hp
      rw [Ledger.keys_modify]
      exact hkeys p (List.mem_cons_of_mem _ hp)
    have ht' : t + min e.2 (amount - t) ≤ amount := by
      have := min_le_right e.2 (amount - t)
      linarith
    have hother (p : String × Rat) (hp : p ∈ rest) :
        (l.modify e.1 (· - min e.2 (amount - t))).get? p.1 = l.get? p.1 := by
      have hne : p.1 ≠ e.1 := fun heq => hnodup.1 (heq ▸ List.mem_map_of_mem hp)
      rw [Ledger.get?_modify]
      simp only [if_neg hne, Option.map_id']
    rw [List.foldl_cons, trimStep_eq ht e he, List.pairwise_cons]
    constructor
    · intro e' he' hcut
      rcases min_choice e.2 (amount - t) with hall | hpart
      · have hrun := trimmed_foldl ht' hnodup.2 hrestKeys hrestPos
        rw [hrun.get?_eq hnodup.1, Ledger.get?_modify, hall]
        simp only [if_pos]
      · -- what was needed is trimmed, so the entries after this one stay as they are
        refine absurd ?_ hcut
        rw [foldl_trimStep_of_enough (by rw [hpart]; linarith)]
        exact hother e' he'
    · refine (ih ht' hnodup.2 hrestKeys hrestPos).imp_of_mem fun {p p'} hp hp' h => ?_
      rwa [YieldsBefore, hother p hp, hother p' hp'] at h

/-! ## One phase -/

/-- What a phase does, and in what turn. -/
structure Phase (amount : Rat) (floors : Ledger Rat) (before after : Ledger Rat × Rat) : Prop
    extends TrimmedTo amount floors before after where
  /-- What is above its floor is cut, one entry after the other. -/
  runs : after = (excesses floors before.1).foldl (trimStep amount) before
  /-- The largest excess has the first turn. -/
  in_order : (excesses floors before.1).Pairwise CutBefore
  /-- An entry is cut only when all those before it that are above their floors are down to
  them. -/
  waits : ∀ key key' x x' y', before.1.get? key = some x → before.1.get? key' = some x' →
    after.1.get? key' = some y' → y' < x' → floors.getD key 0 < x →
    CutBefore (key, x - floors.getD key 0) (key', x' - floors.getD key' 0) →
      after.1.get? key = some (floors.getD key 0)

/-- The cuts of a phase come in turn: of two entries with an excess, the one before the other stands
before it in the list. -/
theorem trim_in_turn (ht : t ≤ amount) {e e' : String × Rat} (he : e ∈ excesses floors l)
    (he' : e' ∈ excesses floors l) (hbefore : CutBefore e e') :
    YieldsBefore l (trim amount floors (l, t)).1 e e' := by
  have hturns : (excesses floors l).Pairwise (YieldsBefore l (trim amount floors (l, t)).1) :=
    foldl_trimStep_in_turn ht excesses_nodup (fun _ => mem_keys_of_mem_excesses)
      fun _ => excesses_nonneg
  have hordered : ∀ ⦃e⦄, e ∈ excesses floors l → ∀ ⦃e'⦄, e' ∈ excesses floors l →
      CutBefore e e' → YieldsBefore l (trim amount floors (l, t)).1 e e' := by
    apply List.Pairwise.forall_of_forall_of_flip
    · exact fun e _ h => absurd h h.asymm
    · refine hturns.imp ?_
      intro _ _ hyields _
      exact hyields
    · refine pairwise_excesses.imp ?_
      intro _ _ h h'
      exact absurd h' h.asymm
  exact hordered he he' hbefore

/-- Trimming is a phase. -/
theorem phase_trim (ht : t ≤ amount) : Phase amount floors (l, t) (trim amount floors (l, t)) := by
  have hto : TrimmedTo amount floors (l, t) (trim amount floors (l, t)) := trimmedTo_trim ht
  refine ⟨hto, rfl, pairwise_excesses, ?_⟩
  intro key key' x x' y' hx hx' hy' hcut habove hbefore
  -- both have an excess, as below its floor an entry stays
  have habove' : floors.getD key' 0 < x' := by
    have hge := (hto.between key' x' y' hx' hy').1
    rcases min_choice x' (floors.getD key' 0) with hmin | hmin
    · rw [hmin] at hge
      exact absurd hcut (not_lt.mpr hge)
    · exact (hmin ▸ hge).trans_lt hcut
  have hmem : (key, x - floors.getD key 0) ∈ excesses floors l :=
    mem_excesses.mpr ⟨sub_pos.mpr habove, x, hx, rfl⟩
  have hmem' : (key', x' - floors.getD key' 0) ∈ excesses floors l :=
    mem_excesses.mpr ⟨sub_pos.mpr habove', x', hx', rfl⟩
  have hdown := trim_in_turn ht hmem hmem' hbefore
    (by rw [hy', hx']; exact fun h => hcut.ne (Option.some.inj h))
  rw [hdown, hx, Option.map_some, sub_sub_cancel]

section
variable (h : TrimmedTo amount floors before after)
include h

/-- When a phase takes less than is needed, every entry ends at its floor, or where it was if that
is below. -/
theorem TrimmedTo.eq_of_lt (hlt : after.2 < amount) (hx : before.1.get? key = some x)
    (hy : after.1.get? key = some y) : y = min x (floors.getD key 0) := by
  -- Less than asked was taken, so all there was above the floors.
  have htook : after.2 = before.2 + excessOver floors before.1 := by
    have htrimmed := h.trimmed
    rcases min_choice amount (before.2 + excessOver floors before.1) with hmin | hmin
    · exact absurd (htrimmed.trans hmin) hlt.ne
    · exact htrimmed.trans hmin
  have hlowest : (before.1.map fun key x => min x (floors.getD key 0)).values.sum =
      before.1.values.sum - excessOver floors before.1 := by
    rw [excessOver, Ledger.values_map, Ledger.values_map, eq_sub_iff_add_eq, ← List.sum_map_add]
    refine congrArg List.sum (List.map_congr_left fun e _ => ?_)
    rcases le_total e.2 (floors.getD e.1 0) with hle | hle
    · rw [min_eq_left hle, max_eq_left (by linarith), add_zero]
    · rw [min_eq_right hle, max_eq_right (by linarith), add_sub_cancel]
  -- No entry lost more than its excess, and together they lost all of it: each lost exactly its
  -- own.
  have hloss := Ledger.sub_le_sum_sub (l := after.1)
    (m := before.1.map fun key x => min x (floors.getD key 0))
    ((Ledger.keys_map _ _).trans h.keys.symm) (fun key u v hu hv => ?_) hy
    (by rw [Ledger.get?_map, hx]; rfl)
  · have hbalance := h.balance
    refine le_antisymm ?_ (h.between key x y hx hy).1
    linarith
  · rw [Ledger.get?_map, Option.map_eq_some_iff] at hv
    obtain ⟨w, hw, rfl⟩ := hv
    exact (h.between key w u hw hu).1

/-- An entry is only cut when less than is needed has been trimmed before. -/
theorem TrimmedTo.lt_of_cut (hx : before.1.get? key = some x) (hy : after.1.get? key = some y)
    (hcut : y < x) : before.2 < amount := by
  have hloss := h.sub_le hx hy
  have := h.le_amount
  linarith

end

/-! ## All three phases -/

variable {b : Budget Rat} {s : Scenario Rat} {p : Pools Rat}

/-- What is trimmed from a deficit, and in what turn. -/
structure RecoveredInTurn (b : Budget Rat) (s : Scenario Rat) (amount : Rat) (p p' : Pools Rat)
    (trimmed : Rat) : Prop where
  /-- What is needed is trimmed, or all that can be. -/
  trimmed_eq : trimmed = min amount (p.goals.values.sum + excessOver (minimumFloors b) p.flexible)
  /-- All amounts together are lower by what is trimmed. -/
  lowered : p'.flexible.values.sum + p'.goals.values.sum =
    p.flexible.values.sum + p.goals.values.sum - trimmed
  /-- No goal grows, or falls below zero. -/
  goals_between : ∀ key x, p.goals.get? key = some x →
    ∃ y, p'.goals.get? key = some y ∧ 0 ≤ y ∧ y ≤ x
  /-- No flexible category grows, or falls below its minimum. -/
  flexible_between : ∀ key x c, p.flexible.get? key = some x → b.flexible.get? key = some c →
    ∃ y, p'.flexible.get? key = some y ∧ c.minimum ≤ y ∧ y ≤ x
  /-- A flexible category is cut only when no goal is above its target any more. -/
  targets_first : ∀ key x y, p.flexible.get? key = some x → p'.flexible.get? key = some y →
    y < x → ∀ id g z, b.goals.get? id = some g → p'.goals.get? id = some z →
      z ≤ g.target s.goalFactor
  /-- A goal is cut below its target only when all flexible categories are at their minimums. -/
  minimums_first : ∀ key g x z, b.goals.get? key = some g → p.goals.get? key = some x →
    p'.goals.get? key = some z → z < x → z < g.target s.goalFactor →
      ∀ id c y, b.flexible.get? id = some c → p'.flexible.get? id = some y → y = c.minimum
  /-- The goals are cut down to their targets, then the flexible categories down to their minimums,
  then the goals; in each phase in turn. -/
  phases : ∃ goals trimmed₁ trimmed₂,
    Phase amount (targetFloors b s) (p.goals, 0) (goals, trimmed₁) ∧
      Phase amount (minimumFloors b) (p.flexible, trimmed₁) (p'.flexible, trimmed₂) ∧
        Phase amount ∅ (goals, trimmed₂) (p'.goals, trimmed)

/-- The phases of a deficit with the turns in them. -/
theorem recoverDeficit_phases_in_turn (b : Budget Rat) (s : Scenario Rat) (p : Pools Rat)
    (h : 0 ≤ amount) : ∃ goals trimmed₁ trimmed₂,
      Phase amount (targetFloors b s) (p.goals, 0) (goals, trimmed₁) ∧
      Phase amount (minimumFloors b) (p.flexible, trimmed₁)
        ((recoverDeficit b s amount p).1.flexible, trimmed₂) ∧
      Phase amount ∅ (goals, trimmed₂)
        ((recoverDeficit b s amount p).1.goals, (recoverDeficit b s amount p).2) := by
  have phase₁ : Phase amount (targetFloors b s) (p.goals, 0) _ := phase_trim h
  have phase₂ : Phase amount (minimumFloors b) (p.flexible, _) _ := phase_trim phase₁.le_amount
  exact ⟨_, _, _, phase₁, phase₂, phase_trim phase₂.le_amount⟩

/-- Whatever is asked for, exactly that is trimmed from a deficit or all that can be: the goals down
to their targets, then the flexible categories down to their minimums, then the goals down to zero.
In each of these phases the larger excess is cut first, and all but the last of those cut are down
to their floors. -/
theorem recoverDeficit_in_turn (hamount : 0 < amount) (hgoals : ∀ x ∈ p.goals.values, 0 ≤ x)
    (hflexible : ∀ key x, p.flexible.get? key = some x →
      ∃ c, b.flexible.get? key = some c ∧ c.minimum ≤ x) :
    RecoveredInTurn b s amount p (recoverDeficit b s amount p).1
      (recoverDeficit b s amount p).2 := by
  have hrecovered := recovered_recoverDeficit (b := b) (s := s) hamount.le hgoals
  obtain ⟨goals, trimmed₁, trimmed₂, phase₁, phase₂, phase₃⟩ :=
    recoverDeficit_phases_in_turn b s p hamount.le
  generalize (recoverDeficit b s amount p).1 = p' at hrecovered phase₂ phase₃ ⊢
  generalize (recoverDeficit b s amount p).2 = trimmed at hrecovered phase₃ ⊢
  -- the goals between the first phase and the last
  have hmiddle {key : String} {z : Rat} (hz : p'.goals.get? key = some z) :
      ∃ x y, p.goals.get? key = some x ∧ goals.get? key = some y := by
    obtain ⟨y, hy⟩ := Ledger.mem_keys_iff.mp (phase₃.keys ▸ Ledger.mem_keys_of_get? hz)
    obtain ⟨x, hx⟩ := Ledger.mem_keys_iff.mp (phase₁.keys ▸ Ledger.mem_keys_of_get? hy)
    exact ⟨x, y, hx, hy⟩
  constructor
  case trimmed_eq => exact hrecovered.trimmed
  case lowered =>
    have := hrecovered.balance
    linarith
  case goals_between =>
    intro key x hx
    obtain ⟨y, hy⟩ := Ledger.mem_keys_iff.mp
      (hrecovered.goals_keys ▸ Ledger.mem_keys_of_get? hx)
    exact ⟨y, hy, hrecovered.goals_between key x y hx hy⟩
  case flexible_between =>
    intro key x c hx hc
    obtain ⟨y, hy⟩ := Ledger.mem_keys_iff.mp
      (hrecovered.flexible_keys ▸ Ledger.mem_keys_of_get? hx)
    obtain ⟨c', hc', hle⟩ := hflexible key x hx
    cases hc.symm.trans hc'
    have hbetween := hrecovered.flexible_between key x y hx hy
    rw [minimumFloors_getD hc, min_eq_right hle] at hbetween
    exact ⟨y, hy, hbetween⟩
  case targets_first =>
    -- the second phase has cut something, so the first has taken all that it may
    intro key x y hx hy hcut id g z hg hz
    obtain ⟨u, v, hu, hv⟩ := hmiddle hz
    have hfirst : v = min u ((targetFloors b s).getD id 0) :=
      phase₁.eq_of_lt (phase₂.lt_of_cut hx hy hcut) hu hv
    rw [targetFloors_getD hg] at hfirst
    calc z ≤ v := (phase₃.between id v z hv hz).2
      _ = min u (g.target s.goalFactor) := hfirst
      _ ≤ g.target s.goalFactor := min_le_right _ _
  case minimums_first =>
    -- the last phase has cut something, so the second has taken all that it may
    intro key g x z hg hx hz hcut hbelow id c y hc hy
    obtain ⟨_, v, hx', hv⟩ := hmiddle hz
    cases hx.symm.trans hx'
    have hlast : z < v := by
      have hge := (phase₁.between key x v hx hv).1
      rw [targetFloors_getD hg] at hge
      exact (lt_min hcut hbelow).trans_le hge
    obtain ⟨w, hw⟩ := Ledger.mem_keys_iff.mp
      (hrecovered.flexible_keys ▸ Ledger.mem_keys_of_get? hy)
    obtain ⟨c', hc', hle⟩ := hflexible id w hw
    cases hc.symm.trans hc'
    have hsecond := phase₂.eq_of_lt (phase₃.lt_of_cut hv hz hlast) hw hy
    rwa [minimumFloors_getD hc, min_eq_right hle] at hsecond
  case phases => exact ⟨goals, trimmed₁, trimmed₂, phase₁, phase₂, phase₃⟩

/-- The bounds of the food are in order. -/
theorem not_hundred_lt_twenty : ¬((0 : Rat) < 100 ∧ (100 : Rat) < 20) := by decide

/-- Two goals to save for, and food. -/
def planned : Budget Rat where
  income := 100
  mandatory := ∅
  flexible := ⟨[("food", ⟨"food", 20, 100, true, 2, literal_not_neg, literal_not_neg,
    not_hundred_lt_twenty⟩)], by decide⟩
  debts := ∅
  goals := ⟨[
    ("bike", ⟨"bike", "bike", 50, 500, "travel", .medium, 5, literal_not_neg, literal_not_neg,
      literal_nonneg⟩),
    ("car", ⟨"car", "car", 40, 500, "travel", .medium, 5, literal_not_neg, literal_not_neg,
      literal_nonneg⟩)], by decide⟩
  income_nonneg := literal_not_neg
  ids_distinct := by decide

/-- More than was planned for all of them. -/
def overspent : Pools Rat where
  flexible := ⟨[("food", 90)], by decide⟩
  goals := ⟨[("bike", 60), ("car", 80)], by decide⟩

/-- Bike and car are cut to forty each. -/
theorem recoverDeficit_overspent_goals :
    (recoverDeficit planned Allocator.halfway 130 overspent).1.goals.entries =
      [("bike", 40), ("car", 40)] := by cbv

/-- Food is cut to its minimum. -/
theorem recoverDeficit_overspent_flexible :
    (recoverDeficit planned Allocator.halfway 130 overspent).1.flexible.entries =
      [("food", 20)] := by cbv

/-- The targets leave fifty of what is needed and the minimum another seventy. The ten that are
missing then come from the bike, which has more left than the car. -/
theorem recoverDeficit_in_turn_overspent :
    (0 : Rat) < 130 ∧ (∀ x ∈ overspent.goals.values, 0 ≤ x) ∧
      (∀ key x, overspent.flexible.get? key = some x →
        ∃ c, planned.flexible.get? key = some c ∧ c.minimum ≤ x) ∧
      (recoverDeficit planned Allocator.halfway 130 overspent).1.goals.entries =
        [("bike", 40), ("car", 40)] ∧
      (recoverDeficit planned Allocator.halfway 130 overspent).1.flexible.entries =
        [("food", 20)] ∧
      RecoveredInTurn planned Allocator.halfway 130 overspent
        (recoverDeficit planned Allocator.halfway 130 overspent).1
        (recoverDeficit planned Allocator.halfway 130 overspent).2 := by
  have hgoals : ∀ x ∈ overspent.goals.values, 0 ≤ x := by decide
  have hflexible : ∀ key x, overspent.flexible.get? key = some x →
      ∃ c, planned.flexible.get? key = some c ∧ c.minimum ≤ x := by
    intro key x hx
    have hmem : (key, x) ∈ [("food", 90)] := Ledger.get?_eq_some_iff.mp hx
    simp only [List.mem_cons, Prod.mk.injEq, List.not_mem_nil, or_false] at hmem
    obtain ⟨rfl, rfl⟩ := hmem
    exact ⟨_, rfl, by norm_num⟩
  exact ⟨by decide, hgoals, hflexible, recoverDeficit_overspent_goals,
    recoverDeficit_overspent_flexible, recoverDeficit_in_turn (by decide) hgoals hflexible⟩

end GoalBudget
