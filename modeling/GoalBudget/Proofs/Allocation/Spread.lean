import GoalBudget.Allocation.Normalize
import GoalBudget.Proofs.Ledger.Total

/-!
# Sharing an amount

`spread` adds to every entry with room its share of an amount, `spreadGain`, which is in proportion
to the entry's weight and held down to its room. Main results:

* `spread_fst`: all entries grow by their gains at once, so entries without room stay;
* `sum_values_spread`: what has moved is what the total grew by;
* `spread_pos` and `spread_le`: something moves, and never more than the amount;
* `spread_all_or_full`: the whole amount moves, or some entry is filled up;
* `spread_finishes_or_fills`: all of this of one pass, whatever the weights are.

That a pass which does not finish fills some entry is why repeated passes come to an end.

The definition writes the entries one after the other into a ledger; since the share of an entry is
computed from the weights and not from what was written, this is a map over the ledger
(`foldl_spreadStep`). The weights are current amounts or ones, and in both cases their sum is
positive (`sum_spreadWeights_pos`), so no share is divided by zero.
-/

namespace GoalBudget

/-- The share of an entry before it is held down to its room. -/
def fullShare (amount : Rat) (allocations : Ledger Rat) (room : Ledger (Limit Rat))
    (key : String) : Rat :=
  amount * (spreadWeights allocations room).getD key 0 / (spreadWeights allocations room).values.sum

/-- What the entry of an id gains when an amount is shared. -/
def spreadGain (amount : Rat) (allocations : Ledger Rat) (room : Ledger (Limit Rat))
    (key : String) : Rat :=
  (room.get? key).elim 0 fun r => r.hold (fullShare amount allocations room key)

variable {amount : Rat} {allocations : Ledger Rat} {room : Ledger (Limit Rat)} {key : String}

/-! ## Weights -/

theorem keys_spreadWeights : (spreadWeights allocations room).keys = room.keys := by
  unfold spreadWeights
  dsimp only
  split <;> exact Ledger.keys_map ..

/-- The weights of entries that have nothing negative are not negative. -/
theorem spreadWeights_nonneg (h : ∀ key ∈ room.keys, 0 ≤ allocations.getD key 0) (w : Rat)
    (hw : w ∈ (spreadWeights allocations room).values) : 0 ≤ w := by
  unfold spreadWeights at hw
  dsimp only at hw
  split at hw
  next =>
    rw [Ledger.values_map] at hw
    obtain ⟨e, _, rfl⟩ := List.mem_map.mp hw
    exact zero_le_one
  next =>
    rw [Ledger.values_map] at hw
    obtain ⟨e, he, rfl⟩ := List.mem_map.mp hw
    exact h e.1 (List.mem_map_of_mem he)

/-- No weight is negative. -/
theorem spreadWeights_getD_nonneg (h : ∀ key ∈ room.keys, 0 ≤ allocations.getD key 0)
    (key : String) : 0 ≤ (spreadWeights allocations room).getD key 0 :=
  Ledger.getD_nonneg fun w hw => spreadWeights_nonneg h w (Ledger.mem_values_of_get? hw)

/-- Weights never add up to nothing: where the amounts do, all weights are one. -/
theorem sum_spreadWeights_pos (h : room.entries ≠ []) :
    0 < (spreadWeights allocations room).values.sum := by
  unfold spreadWeights
  dsimp only
  split
  next =>
    rw [Ledger.values_map]
    have : 0 < room.entries.length := List.length_pos_iff.mpr h
    simpa using this
  next hpos =>
    rw [total_eq_sum] at hpos
    exact not_le.mp hpos

/-! ## The pass in closed form -/

/-- The pass over the entries, with the amounts and what has moved apart. -/
theorem foldl_spreadStep (sum : Rat) (weights : Ledger Rat) (entries : List (String × Limit Rat))
    (state : Ledger Rat × Rat) :
    entries.foldl (spreadStep amount sum weights) state =
      (entries.foldl
        (fun l e => l.modify e.1 (· + e.2.hold (amount * weights.getD e.1 0 / sum))) state.1,
       state.2 + (entries.map fun e => e.2.hold (amount * weights.getD e.1 0 / sum)).sum) := by
  induction entries generalizing state with
  | nil => simp
  | cons e rest ih =>
    rw [List.foldl_cons, List.foldl_cons, ih, List.map_cons, List.sum_cons, ← add_assoc]
    rfl

/-- Without room nothing moves. -/
theorem spread_of_isEmpty (h : room.entries = []) :
    spread amount allocations room = (allocations, 0) := by
  rw [spread, h]
  rfl

/-- An entry with room gains its share, as far as the room goes. -/
theorem spreadGain_of_get? {r : Limit Rat} (h : room.get? key = some r) :
    spreadGain amount allocations room key = r.hold (fullShare amount allocations room key) := by
  rw [spreadGain, h]
  rfl

/-- An entry without room gains nothing. -/
theorem spreadGain_eq_zero (h : room.get? key = none) :
    spreadGain amount allocations room key = 0 := by
  rw [spreadGain, h]
  rfl

/-- All entries grow by their gains. -/
theorem spread_fst : (spread amount allocations room).1 =
    allocations.map fun key x => x + spreadGain amount allocations room key := by
  by_cases hempty : room.entries = []
  · rw [spread_of_isEmpty hempty]
    refine (Ledger.map_self _ fun key x => ?_).symm
    rw [spreadGain_eq_zero (by rw [Ledger.get?, hempty]; rfl), add_zero]
  · have hne : room.entries.isEmpty = false := by simpa using hempty
    rw [spread, hne, if_neg Bool.false_ne_true, foldl_spreadStep, total_eq_sum]
    dsimp only
    refine (Ledger.foldl_modify (fun id r x => x + r.hold (fullShare amount allocations room id)) _
      room.sorted.distinct allocations).trans ?_
    apply Ledger.map_congr
    intro id x _
    have hlookup : room.sorted.entries.lookup id = room.get? id := Ledger.get?_sorted
    rw [hlookup, spreadGain]
    cases room.get? id with
    | none => simp
    | some r => simp

theorem keys_spread : (spread amount allocations room).1.keys = allocations.keys := by
  rw [spread_fst, Ledger.keys_map]

/-- Every amount grows by its gain. -/
theorem get?_spread : (spread amount allocations room).1.get? key =
    (allocations.get? key).map (· + spreadGain amount allocations room key) := by
  rw [spread_fst, Ledger.get?_map]

/-- What has moved is the sum of the gains of the entries with room. -/
theorem spread_snd : (spread amount allocations room).2 =
    (room.entries.map fun e => spreadGain amount allocations room e.1).sum := by
  by_cases hempty : room.entries = []
  · rw [spread_of_isEmpty hempty, hempty]
    rfl
  · have hne : room.entries.isEmpty = false := by simpa using hempty
    rw [spread, hne, if_neg Bool.false_ne_true, foldl_spreadStep, total_eq_sum, zero_add]
    refine (List.Perm.sum_eq (Ledger.entries_sorted_perm.map _)).trans (congrArg List.sum ?_)
    apply List.map_congr_left
    intro e he
    exact (spreadGain_of_get? (Ledger.get?_of_mem he)).symm

/-! ## What moves -/

/-- The total grows by what has moved, if all entries with room exist. -/
theorem sum_values_spread (h : ∀ key ∈ room.keys, key ∈ allocations.keys) :
    (spread amount allocations room).1.values.sum =
      allocations.values.sum + (spread amount allocations room).2 := by
  by_cases hempty : room.entries = []
  · rw [spread_of_isEmpty hempty, add_zero]
  · have hne : room.entries.isEmpty = false := by simpa using hempty
    have hkeys : ∀ e ∈ room.sorted.entries, e.1 ∈ allocations.keys := fun e he =>
      h e.1 (List.mem_map_of_mem (Ledger.mem_entries_sorted.mp he))
    rw [spread, hne, if_neg Bool.false_ne_true, foldl_spreadStep, zero_add]
    exact Ledger.sum_values_foldl_add
      (fun id r => r.hold (amount * (spreadWeights allocations room).getD id 0 /
        total (spreadWeights allocations room).values)) _ hkeys

/-- What a pass needs: something to share, no negative amount to weigh by, and room that is
room. -/
structure Sharable (amount : Rat) (allocations : Ledger Rat) (room : Ledger (Limit Rat)) :
    Prop where
  amount_pos : 0 < amount
  nonneg : ∀ key ∈ room.keys, 0 ≤ allocations.getD key 0
  exceeds : ∀ key r, room.get? key = some r → r.exceeds 0 = true

/-- The shares add up to the amount. -/
theorem sum_fullShare (amount : Rat) (allocations : Ledger Rat) (h : room.entries ≠ []) :
    (room.entries.map fun e => fullShare amount allocations room e.1).sum = amount := by
  have hpos : 0 < (spreadWeights allocations room).values.sum := sum_spreadWeights_pos h
  have hweights : (room.entries.map fun e => (spreadWeights allocations room).getD e.1 0) =
      (spreadWeights allocations room).values := by
    rw [← Ledger.map_getD_keys 0, keys_spreadWeights, Ledger.keys, List.map_map]
    rfl
  have hfactor : (room.entries.map fun e => fullShare amount allocations room e.1) =
      (room.entries.map fun e => (spreadWeights allocations room).getD e.1 0).map
        (amount / (spreadWeights allocations room).values.sum * ·) := by
    rw [List.map_map]
    apply List.map_congr_left
    intro e _
    exact mul_div_right_comm _ _ _
  rw [hfactor, hweights, List.sum_map_mul_left, List.map_id', div_mul_cancel₀ _ hpos.ne']

/-- No entry grows by more than its share. -/
theorem spreadGain_le_fullShare {r : Limit Rat} (h : room.get? key = some r) :
    spreadGain amount allocations room key ≤ fullShare amount allocations room key := by
  rw [spreadGain_of_get? h]
  exact r.hold_le _

/-- No entry grows by more than its room. -/
theorem spreadGain_le_room {bound : Rat} (h : room.get? key = some (.upTo bound)) :
    spreadGain amount allocations room key ≤ bound := by
  rw [spreadGain_of_get? h, Limit.hold_upTo]
  exact min_le_right _ _

/-- No more moves than the amount. -/
theorem spread_le (h : 0 ≤ amount) : (spread amount allocations room).2 ≤ amount := by
  rw [spread_snd]
  by_cases hempty : room.entries = []
  · rw [hempty]
    exact h
  · calc (room.entries.map fun e => spreadGain amount allocations room e.1).sum
        ≤ (room.entries.map fun e => fullShare amount allocations room e.1).sum :=
          List.sum_le_sum fun e he => spreadGain_le_fullShare (Ledger.get?_of_mem he)
      _ = amount := sum_fullShare amount allocations hempty

/-- The whole amount moves, or some entry is filled up. -/
theorem spread_all_or_full (amount : Rat) (allocations : Ledger Rat) (h : room.entries ≠ []) :
    (spread amount allocations room).2 = amount ∨
    ∃ key bound, room.get? key = some (.upTo bound) ∧
      spreadGain amount allocations room key = bound := by
  by_cases hfull : ∃ key bound, room.get? key = some (.upTo bound) ∧
      spreadGain amount allocations room key = bound
  · exact .inr hfull
  · left
    refine spread_snd.trans (Eq.trans (congrArg List.sum ?_) (sum_fullShare amount allocations h))
    apply List.map_congr_left
    intro e he
    have hr := Ledger.get?_of_mem he
    rw [spreadGain_of_get? hr]
    cases hlimit : e.2 with
    | endless => rfl
    | upTo bound =>
      rw [hlimit] at hr
      rw [Limit.hold_upTo]
      refine min_eq_left (le_of_not_ge fun hle => hfull ⟨e.1, bound, hr, ?_⟩)
      rw [spreadGain_of_get? hr, Limit.hold_upTo]
      exact min_eq_right hle

namespace Sharable

variable (h : Sharable amount allocations room)
include h

theorem fullShare_nonneg (key : String) (hne : room.entries ≠ []) :
    0 ≤ fullShare amount allocations room key :=
  div_nonneg (mul_nonneg h.amount_pos.le (spreadWeights_getD_nonneg h.nonneg key))
    (sum_spreadWeights_pos hne).le

theorem spreadGain_nonneg (key : String) : 0 ≤ spreadGain amount allocations room key := by
  cases hr : room.get? key with
  | none => rw [spreadGain_eq_zero hr]
  | some r =>
    have hne : room.entries ≠ [] := List.ne_nil_of_mem (Ledger.get?_eq_some_iff.mp hr)
    have hpos := h.exceeds key r hr
    rw [spreadGain_of_get? hr]
    cases r with
    | endless => exact h.fullShare_nonneg key hne
    | upTo bound =>
      rw [Limit.hold_upTo]
      exact le_min (h.fullShare_nonneg key hne) (le_of_lt (of_decide_eq_true hpos))

theorem spread_pos (hne : room.entries ≠ []) : 0 < (spread amount allocations room).2 := by
  rcases spread_all_or_full amount allocations hne with
    hall | ⟨key, bound, hr, hfull⟩
  · rw [hall]
    exact h.amount_pos
  · have hbound : 0 < bound := of_decide_eq_true (h.exceeds key _ hr)
    have hmem : spreadGain amount allocations room key ∈
        room.entries.map fun e => spreadGain amount allocations room e.1 :=
      List.mem_map.mpr ⟨(key, .upTo bound), Ledger.get?_eq_some_iff.mp hr, rfl⟩
    rw [spread_snd]
    refine lt_of_lt_of_le (hfull ▸ hbound) (List.single_le_sum ?_ _ hmem)
    intro x hx
    obtain ⟨e, _, rfl⟩ := List.mem_map.mp hx
    exact h.spreadGain_nonneg e.1

end Sharable

/-! ## One pass -/

/-- What one pass makes of some allocations: nothing but the entries with room changes, and none of
these by more than its room. What has moved is not nothing and not more than the amount, and the
total has grown by it. Either it is the amount, or some entry has received its whole room. -/
structure SharingPass (amount : Rat) (room : Ledger (Limit Rat)) (before after : Ledger Rat)
    (moved : Rat) : Prop where
  keys_eq : after.keys = before.keys
  total_eq : after.values.sum = before.values.sum + moved
  kept : ∀ key, room.get? key = none → after.get? key = before.get? key
  within_room : ∀ key r x, room.get? key = some r → before.get? key = some x →
    ∃ gain, after.get? key = some (x + gain) ∧ 0 ≤ gain ∧ r.Allows gain
  moved_pos : 0 < moved
  moved_le : moved ≤ amount
  all_or_full : moved = amount ∨ ∃ key bound x, room.get? key = some (.upTo bound) ∧
    before.get? key = some x ∧ after.get? key = some (x + bound)

/-- An amount shared over allocations that are not negative, where every entry with room exists
and its room is positive or endless. -/
theorem spread_finishes_or_fills (hamount : 0 < amount) (hnonneg : ∀ x ∈ allocations.values, 0 ≤ x)
    (hne : room.entries ≠ []) (hkeys : ∀ key ∈ room.keys, key ∈ allocations.keys)
    (hroom : ∀ key r, room.get? key = some r → r.exceeds 0 = true) :
    SharingPass amount room allocations (spread amount allocations room).1
      (spread amount allocations room).2 := by
  have hsharable : Sharable amount allocations room :=
    { amount_pos := hamount
      nonneg := fun key _ => Ledger.getD_nonneg fun x hx => hnonneg x (Ledger.mem_values_of_get? hx)
      exceeds := hroom }
  constructor
  case keys_eq => exact keys_spread
  case total_eq => exact sum_values_spread hkeys
  case kept =>
    intro key hnone
    rw [get?_spread, spreadGain_eq_zero hnone]
    simp
  case within_room =>
    intro key r x hr hx
    refine ⟨spreadGain amount allocations room key, ?_, hsharable.spreadGain_nonneg key, ?_⟩
    · rw [get?_spread, hx, Option.map_some]
    · cases r with
      | endless => trivial
      | upTo bound => exact spreadGain_le_room hr
  case moved_pos => exact hsharable.spread_pos hne
  case moved_le => exact spread_le hamount.le
  case all_or_full =>
    rcases spread_all_or_full amount allocations hne with hall | hfull
    · exact .inl hall
    · right
      obtain ⟨key, bound, hr, hgain⟩ := hfull
      have hmem : key ∈ room.keys := List.mem_map_of_mem (Ledger.get?_eq_some_iff.mp hr)
      obtain ⟨x, hx⟩ := Ledger.mem_keys_iff.mp (hkeys key hmem)
      refine ⟨key, bound, x, hr, hx, ?_⟩
      rw [get?_spread, hx, hgain, Option.map_some]

/-- Three amounts, one of them nothing, -/
def unevenAmounts : Ledger Rat := ⟨[("car", 0), ("home", 30), ("trip", 10)], by decide⟩

/-- and their room, without end for one of them. -/
def unevenRoom : Ledger (Limit Rat) :=
  ⟨[("trip", .endless), ("home", .upTo 6), ("car", .upTo 5)], by decide⟩

/-- The share of the largest amount does not fit, so the pass fills it and does not finish. -/
theorem spread_finishes_or_fills_uneven :
    (0 : Rat) < 20 ∧ unevenRoom.entries ≠ [] ∧
      SharingPass 20 unevenRoom unevenAmounts (spread 20 unevenAmounts unevenRoom).1
        (spread 20 unevenAmounts unevenRoom).2 ∧
      (spread 20 unevenAmounts unevenRoom).2 = 11 := by
  have hroom : ∀ key r, unevenRoom.get? key = some r → r.exceeds 0 = true := by
    intro key r hr
    have hall : ∀ e ∈ unevenRoom.entries, e.2.exceeds 0 = true := by decide +kernel
    exact hall _ (Ledger.get?_eq_some_iff.mp hr)
  have hpass : SharingPass 20 unevenRoom unevenAmounts (spread 20 unevenAmounts unevenRoom).1
      (spread 20 unevenAmounts unevenRoom).2 :=
    spread_finishes_or_fills (by decide) (by decide +kernel) (by decide) (by decide) hroom
  have hmoved : (spread 20 unevenAmounts unevenRoom).2 = 11 := by
    rw [spread_snd]
    decide +kernel
  exact ⟨by decide, by decide, hpass, hmoved⟩

end GoalBudget
