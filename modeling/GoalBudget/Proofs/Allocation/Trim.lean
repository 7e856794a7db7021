import GoalBudget.Allocation.Normalize
import GoalBudget.Proofs.Ledger.Total

/-!
# Trimming a deficit

A phase of trimming cuts the entries one after the other, each by its excess or by what is still
needed. `Trimmed` lists what such a run keeps: the ids, the sum of what is left and what was
trimmed, and the room between an entry and its floor. It is proved for one cut (`trimmed_step`),
then for a run of cuts (`trimmed_foldl`), then for a phase, where the excesses are those over the
floors (`trimmedTo_trim`).

The order of the cuts does not matter here: how much a phase can take is the sum of the excesses
(`excessOver`), whichever entry comes first. What does depend on the order is in a module of its
own.

The phases are joined by what each can take (`taken_of_phases`). The last one has no floors, so its
excesses are the amounts themselves (`excessOver_empty`).

Main results: `recovered_recoverDeficit`, three phases trim the deficit or everything that can be
trimmed, all of the goals and the flexible categories down to their minimums; and
`recoverDeficit_goal_ge`, a goal falls below its target only by what the other two phases leave.
-/

namespace GoalBudget

/-- What a run of cuts keeps and does, each entry of `excess` cut at most once. -/
structure Trimmed (amount : Rat) (excess : List (String × Rat))
    (before after : Ledger Rat × Rat) : Prop where
  /-- No entry comes or goes. -/
  keys : after.1.keys = before.1.keys
  /-- What the entries lose has been trimmed. -/
  balance : after.1.values.sum + after.2 = before.1.values.sum + before.2
  /-- No more is trimmed than is needed or than there is, and no less. -/
  trimmed : after.2 = min amount (before.2 + (excess.map Prod.snd).sum)
  /-- No entry grows. -/
  le : ∀ key x y, before.1.get? key = some x → after.1.get? key = some y → y ≤ x
  /-- No entry loses more than its excess. -/
  ge : ∀ key x y, before.1.get? key = some x → after.1.get? key = some y →
    x - (excess.lookup key).getD 0 ≤ y

variable {amount t : Rat} {l floors : Ledger Rat} {excess : List (String × Rat)}

/-! ## A run of cuts -/

/-- Without cuts nothing changes. -/
theorem trimmed_nil (h : t ≤ amount) : Trimmed amount [] (l, t) (l, t) where
  keys := rfl
  balance := rfl
  trimmed := by simpa using h
  le key x y hx hy := by
    rw [hx] at hy
    exact (Option.some.inj hy).ge
  ge key x y hx hy := by
    rw [hx] at hy
    simpa using (Option.some.inj hy).le

/-- A step cuts the entry by its excess, or by what is still needed if that is less. -/
theorem trimStep_eq (ht : t ≤ amount) (e : String × Rat) (he : 0 ≤ e.2) :
    trimStep amount (l, t) e =
      (l.modify e.1 (· - min e.2 (amount - t)), t + min e.2 (amount - t)) := by
  unfold trimStep
  split
  next h =>
    have hzero : min e.2 (amount - t) = 0 := by
      rw [min_eq_right (by linarith)]
      linarith
    rw [hzero, add_zero, Ledger.modify, Ledger.map_self]
    intro key x
    rw [sub_zero, ite_self]
  next => simp

/-- One cut. -/
theorem trimmed_step (ht : t ≤ amount) (e : String × Rat) (he : 0 ≤ e.2) (hkey : e.1 ∈ l.keys) :
    Trimmed amount [e] (l, t) (trimStep amount (l, t) e) := by
  obtain ⟨x, hx⟩ := Ledger.mem_keys_iff.mp hkey
  have hcut : 0 ≤ min e.2 (amount - t) := le_min he (by linarith)
  rw [trimStep_eq ht e he]
  refine ⟨Ledger.keys_modify _ _ _, ?_, ?_, ?_, ?_⟩
  · rw [Ledger.sum_values_modify hx]
    ring
  · have hsum : ([e].map Prod.snd).sum = e.2 := by simp
    show t + min e.2 (amount - t) = min amount (t + ([e].map Prod.snd).sum)
    rw [hsum, ← min_add_add_left, add_sub_cancel, min_comm]
  · intro key u v hu hv
    rw [Ledger.get?_modify, hu, Option.map_some, Option.some.injEq] at hv
    rw [← hv]
    split
    next => linarith
    next => exact le_refl u
  · intro key u v hu hv
    rw [Ledger.get?_modify, hu, Option.map_some, Option.some.injEq] at hv
    rw [← hv, List.lookup_cons]
    -- Only the entry at hand loses, and at most its own excess.
    by_cases hk : key = e.1
    · have : min e.2 (amount - t) ≤ e.2 := min_le_left _ _
      rw [if_pos hk, hk, beq_self_eq_true]
      show u - e.2 ≤ u - min e.2 (amount - t)
      linarith
    · rw [if_neg hk, beq_eq_false_iff_ne.mpr hk]
      simp

/-- What holds of one cut holds of a run: by induction on the entries, whose ids differ, so
that an entry is cut in the first step or later but not in both. -/
theorem trimmed_foldl (ht : t ≤ amount) (hnodup : (excess.map Prod.fst).Nodup)
    (hkeys : ∀ e ∈ excess, e.1 ∈ l.keys) (hpos : ∀ e ∈ excess, 0 ≤ e.2) :
    Trimmed amount excess (l, t) (excess.foldl (trimStep amount) (l, t)) := by
  induction excess generalizing l t with
  | nil => exact trimmed_nil ht
  | cons e rest ih =>
    rw [List.map_cons, List.nodup_cons] at hnodup
    have he : 0 ≤ e.2 := hpos e (List.mem_cons_self ..)
    have hstep := trimmed_step ht e he (hkeys e (List.mem_cons_self ..))
    rw [List.foldl_cons]
    generalize trimStep amount (l, t) e = state at hstep ⊢
    obtain ⟨l', t'⟩ := state
    have ht' : t' ≤ amount := hstep.trimmed.le.trans (min_le_left _ _)
    have hrun := ih ht' hnodup.2
      (fun p hp => hstep.keys ▸ hkeys p (List.mem_cons_of_mem _ hp))
      (fun p hp => hpos p (List.mem_cons_of_mem _ hp))
    have hmiddle : ∀ key x, l.get? key = some x → ∃ u, l'.get? key = some u := by
      intro key x hx
      exact Ledger.mem_keys_iff.mp (hstep.keys ▸ Ledger.mem_keys_of_get? hx)
    refine ⟨hrun.keys.trans hstep.keys, hrun.balance.trans hstep.balance, ?_, ?_, ?_⟩
    · have hrest : 0 ≤ (rest.map Prod.snd).sum := by
        apply List.sum_nonneg
        intro x hx
        obtain ⟨p, hp, rfl⟩ := List.mem_map.mp hx
        exact hpos p (List.mem_cons_of_mem _ hp)
      have hhead : t' = min amount (t + e.2) := by simpa using hstep.trimmed
      rw [hrun.trimmed, hhead, ← min_add_add_right, ← min_assoc, List.map_cons, List.sum_cons,
        min_eq_left (by linarith : amount ≤ amount + (rest.map Prod.snd).sum), add_assoc]
    · intro key x y hx hy
      obtain ⟨u, hu⟩ := hmiddle key x hx
      exact (hrun.le key u y hu hy).trans (hstep.le key x u hx hu)
    · intro key x y hx hy
      obtain ⟨u, hu⟩ := hmiddle key x hx
      have hfirst := hstep.ge key x u hx hu
      have hlater := hrun.ge key u y hu hy
      rw [List.lookup_cons] at hfirst ⊢
      by_cases hk : key = e.1
      · -- the entry of the first step is not cut again
        subst hk
        rw [Ledger.lookup_eq_none_of_not_mem hnodup.1, Option.getD_none, sub_zero] at hlater
        rw [beq_self_eq_true] at hfirst ⊢
        exact hfirst.trans hlater
      · rw [beq_eq_false_iff_ne.mpr hk] at hfirst ⊢
        simp only [List.lookup_nil, Option.getD_none, sub_zero] at hfirst
        exact (sub_le_sub_right hfirst _).trans hlater

/-! ## One phase -/

/-- What the entries have above their floors, all together. -/
def excessOver (floors l : Ledger Rat) : Rat :=
  (l.map fun key x => max 0 (x - floors.getD key 0)).values.sum

theorem excessOver_nonneg : 0 ≤ excessOver floors l := by
  rw [excessOver, Ledger.values_map]
  refine List.sum_nonneg fun x hx => ?_
  obtain ⟨e, _, rfl⟩ := List.mem_map.mp hx
  exact le_max_left _ _

theorem excesses_perm : (excesses floors l).Perm
    ((l.map fun key x => x - floors.getD key 0).filter fun _ x => 0 < x).entries :=
  List.mergeSort_perm _ _

theorem excesses_nodup : ((excesses floors l).map Prod.fst).Nodup :=
  (excesses_perm.map _).nodup_iff.mpr (Ledger.distinct _)

/-- An entry is cut by what it has above its floor, if it has anything above it. -/
theorem mem_excesses {key : String} {x : Rat} : (key, x) ∈ excesses floors l ↔
    0 < x ∧ ∃ y, l.get? key = some y ∧ x = y - floors.getD key 0 := by
  rw [excesses_perm.mem_iff, ← Ledger.get?_eq_some_iff, Ledger.get?_filter, Ledger.get?_map,
    Option.map_eq_some_iff, decide_eq_true_iff, and_comm]
  constructor
  · rintro ⟨hx, y, hy, rfl⟩
    exact ⟨hx, y, hy, rfl⟩
  · rintro ⟨hx, y, hy, rfl⟩
    exact ⟨hx, y, hy, rfl⟩

theorem mem_keys_of_mem_excesses {e : String × Rat} (he : e ∈ excesses floors l) :
    e.1 ∈ l.keys := by
  obtain ⟨_, y, hy, _⟩ := mem_excesses.mp (show (e.1, e.2) ∈ _ from he)
  exact Ledger.mem_keys_of_get? hy

theorem excesses_nonneg {e : String × Rat} (he : e ∈ excesses floors l) : 0 ≤ e.2 :=
  (mem_excesses.mp (show (e.1, e.2) ∈ _ from he)).1.le

theorem sum_excesses : ((excesses floors l).map Prod.snd).sum = excessOver floors l := by
  refine (excesses_perm.map Prod.snd).sum_eq.trans ?_
  refine (Ledger.sum_values_filter_pos _).trans ?_
  rw [Ledger.map_map, excessOver]

/-- A phase is a run of cuts. -/
theorem trimmed_trim (ht : t ≤ amount) :
    Trimmed amount (excesses floors l) (l, t) (trim amount floors (l, t)) :=
  trimmed_foldl ht excesses_nodup (fun _ => mem_keys_of_mem_excesses) fun _ => excesses_nonneg

/-- What a phase keeps and does, in terms of its floors. -/
structure TrimmedTo (amount : Rat) (floors : Ledger Rat) (before after : Ledger Rat × Rat) :
    Prop where
  /-- No entry comes or goes. -/
  keys : after.1.keys = before.1.keys
  /-- What the entries lose has been trimmed. -/
  balance : after.1.values.sum + after.2 = before.1.values.sum + before.2
  /-- A phase trims what is needed, or all that is above the floors. -/
  trimmed : after.2 = min amount (before.2 + excessOver floors before.1)
  /-- An entry ends between its floor and where it was; below its floor it stays. -/
  between : ∀ key x y, before.1.get? key = some x → after.1.get? key = some y →
    min x (floors.getD key 0) ≤ y ∧ y ≤ x

/-- A phase trims down to its floors, or until enough is trimmed. -/
theorem trimmedTo_trim (ht : t ≤ amount) :
    TrimmedTo amount floors (l, t) (trim amount floors (l, t)) := by
  have hrun : Trimmed amount (excesses floors l) (l, t) _ := trimmed_trim ht
  refine ⟨hrun.keys, hrun.balance, hrun.trimmed.trans (by rw [sum_excesses]), ?_⟩
  intro key x y hx hy
  refine ⟨?_, hrun.le key x y hx hy⟩
  have hge := hrun.ge key x y hx hy
  cases hlookup : (excesses floors l).lookup key with
  | none =>
    rw [hlookup, Option.getD_none, sub_zero] at hge
    exact (min_le_left _ _).trans hge
  | some cut =>
    obtain ⟨_, z, hz, hcut⟩ := mem_excesses.mp
      ((Ledger.lookup_eq_some_iff excesses_nodup).mp hlookup)
    rw [hx, Option.some.injEq] at hz
    rw [hlookup, Option.getD_some, hcut, ← hz, sub_sub_cancel] at hge
    exact (min_le_right _ _).trans hge

section
variable {before after : Ledger Rat × Rat}

/-- No phase trims more than is needed. -/
theorem TrimmedTo.le_amount (h : TrimmedTo amount floors before after) : after.2 ≤ amount :=
  h.trimmed.le.trans (min_le_left _ _)

/-- What a phase leaves above floors that are not negative is not negative either. -/
theorem TrimmedTo.nonneg (h : TrimmedTo amount floors before after)
    (hfloors : ∀ key, 0 ≤ floors.getD key 0) (hbefore : ∀ x ∈ before.1.values, 0 ≤ x) :
    ∀ y ∈ after.1.values, 0 ≤ y := by
  intro y hy
  obtain ⟨e, he, rfl⟩ := List.mem_map.mp hy
  have hy := Ledger.get?_of_mem he
  obtain ⟨x, hx⟩ := Ledger.mem_keys_iff.mp (h.keys ▸ Ledger.mem_keys_of_get? hy)
  have hx' := hbefore x (Ledger.mem_values_of_get? hx)
  exact (le_min hx' (hfloors e.1)).trans (h.between e.1 x e.2 hx hy).1

/-- No entry loses more in a phase than the phase trims. -/
theorem TrimmedTo.sub_le (h : TrimmedTo amount floors before after) {key : String} {x y : Rat}
    (hx : before.1.get? key = some x) (hy : after.1.get? key = some y) :
    x - y ≤ after.2 - before.2 := by
  have hloss := Ledger.sub_le_sum_sub h.keys (fun key x y hx hy => (h.between key x y hx hy).2)
    hx hy
  have hbalance := h.balance
  linarith

end

/-- Where nothing is negative, all of it lies above zero. -/
theorem excessOver_empty (h : ∀ x ∈ l.values, 0 ≤ x) : excessOver ∅ l = l.values.sum := by
  rw [excessOver, Ledger.values_map]
  refine congrArg List.sum (List.map_congr_left fun e he => ?_)
  rw [Ledger.getD_empty, sub_zero]
  exact max_eq_right (h e.2 (List.mem_map_of_mem he))

/-! ## All three phases -/

/-- The targets of the goals, the floors of the first phase. -/
def targetFloors (b : Budget Rat) (s : Scenario Rat) : Ledger Rat :=
  b.goals.map fun _ g => g.target s.goalFactor

/-- The minimums of the flexible categories, the floors of the second phase. -/
def minimumFloors (b : Budget Rat) : Ledger Rat := b.flexible.map fun _ c => c.minimum

variable {b : Budget Rat} {s : Scenario Rat} {p : Pools Rat}

/-- The floor of a goal in the first phase is its target. -/
theorem targetFloors_getD {key : String} {g : Goal Rat} (hg : b.goals.get? key = some g) :
    (targetFloors b s).getD key 0 = g.target s.goalFactor := by
  rw [targetFloors, Ledger.getD, Ledger.get?_map, hg]
  rfl

theorem minimumFloors_getD {key : String} {c : Category Rat} (hc : b.flexible.get? key = some c) :
    (minimumFloors b).getD key 0 = c.minimum := by
  rw [minimumFloors, Ledger.getD, Ledger.get?_map, hc]
  rfl

theorem targetFloors_nonneg (key : String) : 0 ≤ (targetFloors b s).getD key 0 := by
  rw [targetFloors, Ledger.getD, Ledger.get?_map]
  cases b.goals.get? key with
  | none => exact le_refl 0
  | some g =>
    exact mul_nonneg (not_lt.mp g.suggestedContribution_nonneg) (not_lt.mp s.goalFactor_nonneg)

/-- What the three phases do together to a deficit. -/
structure Recovered (b : Budget Rat) (amount : Rat) (p p' : Pools Rat) (trimmed : Rat) : Prop where
  /-- The goals stay the same ones. -/
  goals_keys : p'.goals.keys = p.goals.keys
  /-- The flexible categories stay the same ones. -/
  flexible_keys : p'.flexible.keys = p.flexible.keys
  /-- What goals and categories lose has been trimmed. -/
  balance : p'.flexible.values.sum + p'.goals.values.sum + trimmed =
    p.flexible.values.sum + p.goals.values.sum
  /-- Goals stay between zero and what they had. -/
  goals_between : ∀ key x y, p.goals.get? key = some x → p'.goals.get? key = some y →
    0 ≤ y ∧ y ≤ x
  /-- Flexible categories stay above their minimums and below what they had. -/
  flexible_between : ∀ key x y, p.flexible.get? key = some x → p'.flexible.get? key = some y →
    min x ((minimumFloors b).getD key 0) ≤ y ∧ y ≤ x
  /-- All that can be trimmed is, or as much as is needed. -/
  trimmed : trimmed = min amount (p.goals.values.sum + excessOver (minimumFloors b) p.flexible)

/-- What three phases take when the last one reaches what the first has left. -/
theorem taken_of_phases {extra start left t₁ t₂ t₃ : Rat} (hsecond : t₂ = min amount (t₁ + extra))
    (hthird : t₃ = min amount (t₂ + left)) (hbalance : left + t₁ = start) (hleft : 0 ≤ left) :
    t₃ = min amount (start + extra) := by
  rcases min_choice amount (t₁ + extra) with hmin | hmin
  · -- the second phase has all that is needed, so the third cuts nothing
    have hall : amount ≤ t₁ + extra := hmin ▸ min_le_right _ _
    rw [hthird, hsecond, hmin, min_eq_left (by linarith), min_eq_left (by linarith)]
  · rw [hthird, hsecond, hmin]
    congr 1
    linarith

/-- A deficit is trimmed in three phases, each of which goes on where the one before has
stopped. -/
theorem recoverDeficit_phases (b : Budget Rat) (s : Scenario Rat) (p : Pools Rat)
    (h : 0 ≤ amount) : ∃ g₁ t₁ f₂ t₂ g₃ t₃,
      TrimmedTo amount (targetFloors b s) (p.goals, 0) (g₁, t₁) ∧
      TrimmedTo amount (minimumFloors b) (p.flexible, t₁) (f₂, t₂) ∧
      TrimmedTo amount ∅ (g₁, t₂) (g₃, t₃) ∧ recoverDeficit b s amount p = (⟨f₂, g₃⟩, t₃) := by
  have phase₁ : TrimmedTo amount (targetFloors b s) (p.goals, 0) _ := trimmedTo_trim h
  rcases h₁ : trim amount (targetFloors b s) (p.goals, 0) with ⟨g₁, t₁⟩
  rw [h₁] at phase₁
  have phase₂ : TrimmedTo amount (minimumFloors b) (p.flexible, t₁) _ :=
    trimmedTo_trim phase₁.le_amount
  rcases h₂ : trim amount (minimumFloors b) (p.flexible, t₁) with ⟨f₂, t₂⟩
  rw [h₂] at phase₂
  have phase₃ : TrimmedTo amount ∅ (g₁, t₂) _ := trimmedTo_trim phase₂.le_amount
  rcases h₃ : trim amount ∅ (g₁, t₂) with ⟨g₃, t₃⟩
  rw [h₃] at phase₃
  refine ⟨g₁, t₁, f₂, t₂, g₃, t₃, phase₁, phase₂, phase₃, ?_⟩
  unfold recoverDeficit
  dsimp only
  rw [← targetFloors, ← minimumFloors, h₁]
  dsimp only
  rw [h₂]
  dsimp only
  rw [h₃]

/-- The last phase reaches what the first has left of the goals, so the two of them together
can take all that the goals have. -/
theorem recovered_recoverDeficit (h : 0 ≤ amount) (hgoals : ∀ x ∈ p.goals.values, 0 ≤ x) :
    Recovered b amount p (recoverDeficit b s amount p).1 (recoverDeficit b s amount p).2 := by
  obtain ⟨g₁, t₁, f₂, t₂, g₃, t₃, phase₁, phase₂, phase₃, hrun⟩ := recoverDeficit_phases b s p h
  rw [hrun]
  have hleft : ∀ y ∈ g₁.values, 0 ≤ y := phase₁.nonneg targetFloors_nonneg hgoals
  have balance₁ : g₁.values.sum + t₁ = p.goals.values.sum + 0 := phase₁.balance
  constructor
  case goals_keys => exact phase₃.keys.trans phase₁.keys
  case flexible_keys => exact phase₂.keys
  case balance =>
    have balance₂ : f₂.values.sum + t₂ = p.flexible.values.sum + t₁ := phase₂.balance
    have balance₃ : g₃.values.sum + t₃ = g₁.values.sum + t₂ := phase₃.balance
    show f₂.values.sum + g₃.values.sum + t₃ = _
    linarith
  case goals_between =>
    intro key x z hx hz
    obtain ⟨y, hy⟩ : ∃ y, g₁.get? key = some y :=
      Ledger.mem_keys_iff.mp (phase₁.keys ▸ Ledger.mem_keys_of_get? hx)
    have hfirst := phase₁.between key x y hx hy
    have hlast := phase₃.between key y z hy hz
    -- The third phase may cut down to zero, below every floor of the first.
    rw [Ledger.getD_empty, min_eq_right (hleft y (Ledger.mem_values_of_get? hy))] at hlast
    exact ⟨hlast.1, hlast.2.trans hfirst.2⟩
  case flexible_between =>
    intro key x y hx hy
    exact phase₂.between key x y hx hy
  case trimmed =>
    -- Without floors the excess of the goals is all they hold.
    have hthird : t₃ = min amount (t₂ + g₁.values.sum) := by
      rw [← excessOver_empty hleft]
      exact phase₃.trimmed
    rw [add_zero] at balance₁
    exact taken_of_phases phase₂.trimmed hthird balance₁ (List.sum_nonneg hleft)

/-- The part of a deficit that is left for the last phase: what the goals have above their targets
and the flexible categories above their minimums does not cover it. -/
def uncovered (b : Budget Rat) (s : Scenario Rat) (amount : Rat) (p : Pools Rat) : Rat :=
  max 0 (amount - (excessOver (targetFloors b s) p.goals + excessOver (minimumFloors b) p.flexible))

/-- A goal is cut below its target only in the last phase, by no more than is left for it. -/
theorem recoverDeficit_goal_ge (h : 0 ≤ amount) {key : String} {x : Rat}
    (hx : p.goals.get? key = some x) :
    ∃ y, (recoverDeficit b s amount p).1.goals.get? key = some y ∧
      min x ((targetFloors b s).getD key 0) - uncovered b s amount p ≤ y := by
  obtain ⟨g₁, t₁, f₂, t₂, g₃, t₃, phase₁, phase₂, phase₃, hrun⟩ := recoverDeficit_phases b s p h
  obtain ⟨y, hy⟩ : ∃ y, g₁.get? key = some y :=
    Ledger.mem_keys_iff.mp (phase₁.keys ▸ Ledger.mem_keys_of_get? hx)
  obtain ⟨z, hz⟩ : ∃ z, g₃.get? key = some z :=
    Ledger.mem_keys_iff.mp (phase₃.keys ▸ Ledger.mem_keys_of_get? hy)
  rw [hrun]
  refine ⟨z, hz, ?_⟩
  have hfirst := (phase₁.between key x y hx hy).1
  have hlast : y - z ≤ t₃ - t₂ := phase₃.sub_le hy hz
  have hneeded : t₃ ≤ amount := phase₃.le_amount
  -- the first two phases take what is needed or all that they may take
  have htaken : amount - t₂ ≤ uncovered b s amount p := by
    have h₁ : t₁ = min amount (0 + excessOver (targetFloors b s) p.goals) := phase₁.trimmed
    have h₂ : t₂ = min amount (t₁ + excessOver (minimumFloors b) p.flexible) := phase₂.trimmed
    have hexcess : 0 ≤ excessOver (minimumFloors b) p.flexible := excessOver_nonneg
    rw [h₂, h₁, zero_add, ← min_add_add_right, ← min_assoc,
      min_eq_left (le_add_of_nonneg_right hexcess), uncovered]
    rcases min_choice amount (excessOver (targetFloors b s) p.goals +
        excessOver (minimumFloors b) p.flexible) with hmin | hmin
    · rw [hmin, sub_self]
      exact le_max_left _ _
    · rw [hmin]
      exact le_max_right _ _
  linarith

end GoalBudget
