import GoalBudget.Proofs.Allocation.Conservation
import Mathlib.Algebra.Module.Submodule.Lattice
import Mathlib.Computability.Primrec.List
import Mathlib.Data.List.Permutation

/-!
# In what proportion a surplus is shared

A sharing multiplies the entries that have room by one factor, and holds those of them down that
have not room enough (`exists_growth`). An entry without anything gets something only if all entries
with room are like it (`getD_eq_zero_of_spreadGain`), as then all weights are the same.

So the passes over a surplus multiply the goals that had something at the start. Each pass has a
factor of its own, but a goal that still has room at the end had room in all of them, so it has
grown by their product, and no other goal by more (`SharedOut.in_proportion`). A goal that had
nothing waits for all of these to be reached, and the flexible categories wait for all goals.

`SharedAmongGoals` says of the goals what a pass keeps: which of them have grown and by what factor,
and which were full from the start. It composes, the factors being multiplied, and that is the
induction on passes. Main result: `sharedOut_normalize`.
-/

namespace GoalBudget

/-! ## One sharing -/

section
variable {amount : Rat} {allocations : Ledger Rat} {room : Ledger (Limit Rat)} {key : String}

/-- What the entries with room have, all together. -/
def heldByOpen (allocations : Ledger Rat) (room : Ledger (Limit Rat)) : Rat :=
  (room.map fun key _ => allocations.getD key 0).values.sum

/-- Where the entries with room have something, they are weighted by what they have. -/
theorem spreadWeights_of_held (h : 0 < heldByOpen allocations room) :
    spreadWeights allocations room = room.map fun key _ => allocations.getD key 0 := by
  unfold spreadWeights
  dsimp only
  rw [total_eq_sum]
  exact if_neg (not_le.mpr h)

/-- The share of an entry with room is then a part of what it has, the same for all. -/
theorem fullShare_of_held (h : 0 < heldByOpen allocations room) {r : Limit Rat}
    (hr : room.get? key = some r) : fullShare amount allocations room key =
      amount / heldByOpen allocations room * allocations.getD key 0 := by
  have hweight : (room.map fun key _ => allocations.getD key 0).getD key 0 =
      allocations.getD key 0 := by
    rw [Ledger.getD, Ledger.get?_map, hr]
    rfl
  rw [fullShare, spreadWeights_of_held h, hweight, heldByOpen]
  ring

namespace Sharable

variable (h : Sharable amount allocations room)
include h

/-- Where the entries with room have nothing together, none of them has anything. -/
theorem getD_eq_zero_of_held (hheld : ¬0 < heldByOpen allocations room) (hkey : key ∈ room.keys) :
    allocations.getD key 0 = 0 := by
  have hnonneg : ∀ x ∈ (room.map fun key _ => allocations.getD key 0).values, 0 ≤ x := by
    intro x hx
    rw [Ledger.values_map] at hx
    obtain ⟨e, he, rfl⟩ := List.mem_map.mp hx
    exact h.nonneg e.1 (List.mem_map_of_mem he)
  obtain ⟨r, hr⟩ := Ledger.mem_keys_iff.mp hkey
  have hentry : (room.map fun key _ => allocations.getD key 0).get? key =
      some (allocations.getD key 0) := by
    rw [Ledger.get?_map, hr]
    rfl
  have hmem := Ledger.mem_values_of_get? hentry
  refine le_antisymm ?_ (h.nonneg key hkey)
  exact (List.single_le_sum hnonneg _ hmem).trans (not_lt.mp hheld)

/-- There is a rate at which all entries grow that have something, as far as their room goes. -/
theorem exists_growth : ∃ rate, 0 ≤ rate ∧ ∀ key x, allocations.get? key = some x → 0 < x →
    spreadGain amount allocations room key ≤ rate * x ∧
    ∀ r, room.get? key = some r →
      spreadGain amount allocations room key = r.hold (rate * x) := by
  by_cases hheld : 0 < heldByOpen allocations room
  · refine ⟨amount / heldByOpen allocations room, (div_pos h.amount_pos hheld).le, ?_⟩
    intro key x hx hpos
    have hgain (r : Limit Rat) (hr : room.get? key = some r) :
        spreadGain amount allocations room key =
          r.hold (amount / heldByOpen allocations room * x) := by
      rw [spreadGain_of_get? hr, fullShare_of_held hheld hr, Ledger.getD_eq hx]
    refine ⟨?_, hgain⟩
    cases hr : room.get? key with
    | none =>
      rw [spreadGain_eq_zero hr]
      exact mul_nonneg (div_pos h.amount_pos hheld).le hpos.le
    | some r =>
      rw [hgain r hr]
      exact r.hold_le _
  · -- no entry that has something has room
    refine ⟨0, le_refl 0, fun key x hx hpos => ?_⟩
    have hnone : room.get? key = none := by
      rw [Ledger.get?_eq_none_iff]
      intro hkey
      have hzero := h.getD_eq_zero_of_held hheld hkey
      rw [Ledger.getD_eq hx] at hzero
      exact hpos.ne' hzero
    refine ⟨?_, fun r hr => ?_⟩
    · rw [spreadGain_eq_zero hnone, zero_mul]
    · rw [hnone] at hr
      cases hr

/-- An entry that has nothing gains only if no entry with room has anything. -/
theorem getD_eq_zero_of_spreadGain (hx : allocations.get? key = some 0)
    (hgain : spreadGain amount allocations room key ≠ 0) {other : String}
    (hother : other ∈ room.keys) : allocations.getD other 0 = 0 := by
  refine h.getD_eq_zero_of_held (fun hheld => hgain ?_) hother
  cases hr : room.get? key with
  | none => exact spreadGain_eq_zero hr
  | some r =>
    have hroom := h.exceeds key r hr
    rw [spreadGain_of_get? hr, fullShare_of_held hheld hr, Ledger.getD_eq hx, mul_zero]
    cases r with
    | endless => rfl
    | upTo bound =>
      rw [Limit.hold_upTo]
      exact min_eq_left (of_decide_eq_true hroom).le

end Sharable

end

/-! ## The passes -/

variable {b : Budget Rat} {s : Scenario Rat} {p q : Pools Rat} {amount committed : Rat}
  {factor : Rat}

/-- Whether the goals that had something at the start grew by one factor as long as they had room,
and none of them by more. -/
def GrownBy (b : Budget Rat) (factor : Rat) (start p : Pools Rat) : Prop :=
  ∀ key g x y, b.goals.get? key = some g → start.goals.get? key = some x → 0 < x →
    p.goals.get? key = some y → y ≤ factor * x ∧
      (normalizationTolerance < g.remainingAmount - y → y = factor * x)

/-- Whether all goals that had something at the start are reached, but for the tolerance. -/
def StartedFull (b : Budget Rat) (start p : Pools Rat) : Prop :=
  ∀ key g x y, b.goals.get? key = some g → start.goals.get? key = some x → 0 < x →
    p.goals.get? key = some y → g.remainingAmount - y ≤ normalizationTolerance

/-- How a surplus is shared among the goals. -/
structure SharedAmongGoals (b : Budget Rat) (start p : Pools Rat) : Prop where
  /-- No goal loses anything. -/
  goal_ge : ∀ key x, start.goals.get? key = some x → ∃ y, p.goals.get? key = some y ∧ x ≤ y
  /-- Goals that had something grow in proportion to it, as far as they have room. -/
  in_proportion : ∃ factor, 1 ≤ factor ∧ GrownBy b factor start p
  /-- A goal that had nothing gets something only when those that had something are reached. -/
  newcomers_wait : ∀ key y, start.goals.get? key = some 0 → p.goals.get? key = some y → 0 < y →
    StartedFull b start p

/-- How a surplus is shared out. -/
structure SharedOut (b : Budget Rat) (start p : Pools Rat) : Prop
    extends SharedAmongGoals b start p where
  /-- No flexible category loses anything. -/
  flexible_ge : ∀ key x, start.flexible.get? key = some x →
    ∃ y, p.flexible.get? key = some y ∧ x ≤ y
  /-- A flexible category gets something only when all goals are reached. -/
  goals_first : ∀ key x y, start.flexible.get? key = some x → p.flexible.get? key = some y →
    x < y → p.GoalsFull b

theorem SharedAmongGoals.refl (b : Budget Rat) (p : Pools Rat) : SharedAmongGoals b p p where
  goal_ge key x hx := ⟨x, hx, le_refl x⟩
  in_proportion := by
    refine ⟨1, le_refl 1, fun key g x y _ hx _ hy => ?_⟩
    rw [hx, Option.some.injEq] at hy
    rw [one_mul, hy]
    exact ⟨le_refl y, fun _ => rfl⟩
  newcomers_wait key y hx hy hpos := by
    rw [hx, Option.some.injEq] at hy
    exact absurd hy hpos.ne

section
variable {start : Pools Rat} (hp : p.Within b) (hamount : 0 < amount)
include hp hamount

/-- What a goal has after a sharing among the goals. -/
theorem exists_get?_before {key : String} {z : Rat}
    (hz : (spread amount p.goals (goalRoom b p.goals)).1.get? key = some z) :
    ∃ y, p.goals.get? key = some y ∧ z = y + spreadGain amount p.goals (goalRoom b p.goals) key ∧
      y ≤ z := by
  rw [get?_spread, Option.map_eq_some_iff] at hz
  obtain ⟨y, hy, rfl⟩ := hz
  exact ⟨y, hy, rfl, le_add_of_nonneg_right ((sharable_goals hp hamount).spreadGain_nonneg key)⟩

/-- A sharing among the goals multiplies the factor by which they have grown. -/
theorem GrownBy.spread (h : GrownBy b factor start p) (hfactor : 1 ≤ factor)
    (hge : ∀ key x, start.goals.get? key = some x → ∃ y, p.goals.get? key = some y ∧ x ≤ y) :
    ∃ factor', 1 ≤ factor' ∧ GrownBy b factor' start
      { p with goals := (spread amount p.goals (goalRoom b p.goals)).1 } := by
  obtain ⟨rate, hrate, hgrowth⟩ := (sharable_goals hp hamount).exists_growth
  refine ⟨(1 + rate) * factor, by nlinarith, fun key g x z hg hx hpos hz => ?_⟩
  obtain ⟨y, hy, rfl, hle⟩ := exists_get?_before hp hamount hz
  obtain ⟨_, hy', hxy⟩ := hge key x hx
  cases hy.symm.trans hy'
  obtain ⟨hgrown, hopen⟩ := h key g x y hg hx hpos hy
  obtain ⟨hgain, hheld⟩ := hgrowth key y hy (hpos.trans_le hxy)
  constructor
  · calc y + spreadGain amount p.goals (goalRoom b p.goals) key
        ≤ (1 + rate) * y := by linarith
      _ ≤ (1 + rate) * (factor * x) := mul_le_mul_of_nonneg_left hgrown (by linarith)
      _ = (1 + rate) * factor * x := by ring
  · intro hroom
    -- a goal with room after the pass had room before, and was not held down
    have hbefore : normalizationTolerance < g.remainingAmount - y := by linarith
    have hlimit : (goalRoom b p.goals).get? key = some (.upTo (g.remainingAmount - y)) :=
      get?_goalRoom.mpr ⟨y, hy, by rw [hg]; exact hbefore, by rw [hg]; rfl⟩
    have htolerance := normalizationTolerance_nonneg
    have hnotHeld : spreadGain amount p.goals (goalRoom b p.goals) key = rate * y := by
      have hmin := hheld _ hlimit
      rw [Limit.hold_upTo] at hmin
      rcases min_choice (rate * y) (g.remainingAmount - y) with hchoice | hchoice
      · exact hmin.trans hchoice
      · rw [hmin, hchoice] at hroom
        linarith
    rw [hnotHeld]
    calc y + rate * y = (1 + rate) * y := by ring
      _ = (1 + rate) * factor * x := by rw [hopen hbefore, mul_assoc]

/-- A sharing among the goals keeps how they share the surplus. -/
theorem SharedAmongGoals.spread (h : SharedAmongGoals b start p) : SharedAmongGoals b start
    { p with goals := (spread amount p.goals (goalRoom b p.goals)).1 } := by
  have hsharable := sharable_goals hp hamount
  constructor
  case goal_ge =>
    intro key x hx
    obtain ⟨y, hy, hle⟩ := h.goal_ge key x hx
    refine ⟨_, get?_spread.trans (congrArg _ hy), ?_⟩
    exact hle.trans (le_add_of_nonneg_right (hsharable.spreadGain_nonneg key))
  case in_proportion =>
    obtain ⟨factor, hfactor, hgrown⟩ := h.in_proportion
    exact hgrown.spread hp hamount hfactor h.goal_ge
  case newcomers_wait =>
    intro key z hx hz hpos key' g x' z' hg hx' hpos' hz'
    obtain ⟨y, hy, rfl, _⟩ := exists_get?_before hp hamount hz
    obtain ⟨y', hy', rfl, hle'⟩ := exists_get?_before hp hamount hz'
    have hroom : g.remainingAmount - y' ≤ normalizationTolerance := by
      by_cases hbefore : 0 < y
      · exact h.newcomers_wait key y hx hy hbefore key' g x' y' hg hx' hpos' hy'
      · -- the newcomer gets its first money now, so no goal with room has anything
        have hzero : y = 0 := le_antisymm (not_lt.mp hbefore) (hp.goals_nonneg y
          (Ledger.mem_values_of_get? hy))
        subst hzero
        rw [zero_add] at hpos
        by_contra hopen
        have hkey : key' ∈ (goalRoom b p.goals).keys := Ledger.mem_keys_of_get?
          (get?_goalRoom.mpr ⟨y', hy', by rw [hg]; exact not_le.mp hopen, rfl⟩)
        have hnothing := hsharable.getD_eq_zero_of_spreadGain hy hpos.ne' hkey
        rw [Ledger.getD_eq hy'] at hnothing
        obtain ⟨_, hsame, hxy⟩ := h.goal_ge key' x' hx'
        cases hy'.symm.trans hsame
        linarith
    linarith

/-- A pass over a surplus keeps how the goals share it. -/
theorem SharedAmongGoals.absorbSurplus (h : SharedAmongGoals b start p) :
    SharedAmongGoals b start (absorbSurplus b s amount p).1 := by
  rcases absorbSurplus_cases s hp hamount with ⟨_, heq⟩ | ⟨_, heq⟩
  · rw [heq]
    exact h.spread hp hamount
  -- the flexible categories take it, and the goals are as they were
  · rw [heq]
    exact ⟨h.goal_ge, h.in_proportion, h.newcomers_wait⟩

end

/-- However many passes are made, a surplus goes to the goals first, and to the flexible categories
only when all goals are reached. Goals that had something and still have room have grown by one
factor, and none of the others by more; those that had nothing wait for them. Nothing loses
anything. -/
theorem sharedOut_normalize (passes : Nat) (h : p.Within b)
    (hsurplus : normalizationTolerance < residual b.income committed p) :
    SharedOut b p (normalize b s committed passes p) := by
  have hover : -normalizationTolerance ≤ residual b.income committed p := by
    have := normalizationTolerance_nonneg
    linarith
  have hgoals : SharedAmongGoals b p (normalize b s committed passes p) :=
    normalize_keeps (fun q hq hpos hshared => hshared.absorbSurplus hq hpos) passes h hover
      (.refl b p)
  refine ⟨hgoals, ?_, ?_⟩
  · intro key x hx
    exact normalize_flexible_ge_of_not_over passes h hover hx
  · intro key x y hx hy hlt
    rcases normalize_flexible_eq_or_goalsFull (s := s) passes h hover with hsame | ⟨hfull, _⟩
    · rw [hsame, hx, Option.some.injEq] at hy
      exact absurd hy hlt.ne
    · exact hfull

/-- A goal that asks for nothing in particular until it is reached. -/
def patient (id : String) (remaining : Rat) (h : ¬remaining < 0) : Goal Rat :=
  ⟨id, id, 0, remaining, "savings", .medium, 5, literal_not_neg, h, literal_nonneg⟩

/-- Three goals to save for, and food. -/
def savers : Budget Rat where
  income := 140
  mandatory := ∅
  flexible := ⟨[("food", ⟨"food", 20, 100, true, 2, literal_not_neg, literal_not_neg,
    by decide⟩)], by decide⟩
  debts := ∅
  goals := ⟨[("bike", patient "bike" 20 literal_not_neg),
    ("car", patient "car" 200 literal_not_neg), ("trip", patient "trip" 50 literal_not_neg)],
    by decide⟩
  income_nonneg := literal_not_neg
  ids_distinct := by decide

/-- What the savers have put aside; nothing yet for the trip. -/
def setAside : Pools Rat where
  flexible := ⟨[("food", 40)], by decide⟩
  goals := ⟨[("bike", 10), ("car", 10), ("trip", 0)], by decide⟩

/-- What is set aside is within its bounds. -/
theorem within_setAside : setAside.Within savers where
  goals_keys := by cbv
  flexible_keys := by cbv
  goals_admit key x g hx hg := by
    have hmem : (key, x) ∈ [("bike", 10), ("car", 10), ("trip", 0)] := Ledger.get?_eq_some_iff.mp hx
    simp only [List.mem_cons, Prod.mk.injEq, List.not_mem_nil, or_false] at hmem
    rcases hmem with ⟨rfl, rfl⟩ | ⟨rfl, rfl⟩ | ⟨rfl, rfl⟩ <;> cases hg <;>
      norm_num [Goal.Admits, patient]
  flexible_admit key x c hx hc := by
    have hmem : (key, x) ∈ [("food", 40)] := Ledger.get?_eq_some_iff.mp hx
    simp only [List.mem_cons, Prod.mk.injEq, List.not_mem_nil, or_false] at hmem
    obtain ⟨rfl, rfl⟩ := hmem
    cases hc
    norm_num [Category.Admits]

/-- The bike is complete, the car takes what is left, and the trip waits. -/
theorem normalize_setAside_goals :
    (normalize savers Allocator.halfway 0 3 setAside).goals.entries =
      [("bike", 20), ("car", 80), ("trip", 0)] := by cbv

/-- The flexible category keeps what it had. -/
theorem normalize_setAside_flexible :
    (normalize savers Allocator.halfway 0 3 setAside).flexible.entries = [("food", 40)] := by cbv

/-- The bike is reached in the first pass, and the car takes the rest: it has eight times what it
had, the bike twice. The trip and the food wait. -/
theorem sharedOut_normalize_savers :
    setAside.Within savers ∧ normalizationTolerance < residual savers.income 0 setAside ∧
      (normalize savers Allocator.halfway 0 3 setAside).goals.entries =
        [("bike", 20), ("car", 80), ("trip", 0)] ∧
      (normalize savers Allocator.halfway 0 3 setAside).flexible.entries = [("food", 40)] ∧
      SharedOut savers setAside (normalize savers Allocator.halfway 0 3 setAside) := by
  have hsurplus : normalizationTolerance < residual savers.income 0 setAside := by decide +kernel
  exact ⟨within_setAside, hsurplus, normalize_setAside_goals, normalize_setAside_flexible,
    sharedOut_normalize 3 within_setAside hsurplus⟩

end GoalBudget
