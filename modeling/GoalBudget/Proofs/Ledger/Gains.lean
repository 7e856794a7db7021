import GoalBudget.Allocation.Proposal
import GoalBudget.Proofs.Ledger.Total

/-!
# Ledgers that gain grants

A grant is an amount for an id. `Gains` relates a ledger of amounts to what it is after grants:
every id has what it was granted on top of what it had, and the total grows by all grants. It is
kept from one step to a run of steps (`Gains.foldl`), so two routines that enter the same grants
lead to the same amounts, in whatever order and however they write them.

The amounts of a ledger are grants themselves, each to an id of its own: `grantedTo_entries`.

The hybrid strategy is the reason for this module. It records what it spends twice, once bucket by
bucket and once as totals by id, and hands over a third ledger in which payments to debts are left
out. All three are read off one list of grants, and what they have in common is what is said here.
-/

namespace GoalBudget

/-- What an id is granted, all together. -/
def grantedTo (id : String) (grants : List (String × Rat)) : Rat :=
  (grants.map fun grant => if grant.1 = id then grant.2 else 0).sum

section
variable {id : String} {grants later : List (String × Rat)}

/-- Grants made in two rounds. -/
theorem grantedTo_append :
    grantedTo id (grants ++ later) = grantedTo id grants + grantedTo id later := by
  rw [grantedTo, List.map_append, List.sum_append, grantedTo, grantedTo]

/-- An id that no grant is for is granted nothing. -/
theorem grantedTo_eq_zero (h : ∀ grant ∈ grants, grant.1 ≠ id) : grantedTo id grants = 0 := by
  refine List.sum_eq_zero fun x hx => ?_
  obtain ⟨grant, hgrant, rfl⟩ := List.mem_map.mp hx
  exact if_neg (h grant hgrant)

/-- Grants to other ids can be left out. -/
theorem grantedTo_filter {τ : Type} {grant : τ → String × Rat} {keep : τ → Bool} {items : List τ}
    (h : ∀ item ∈ items, keep item = false → (grant item).1 ≠ id) :
    grantedTo id ((items.filter keep).map grant) = grantedTo id (items.map grant) := by
  induction items with
  | nil => rfl
  | cons item rest ih =>
    have hrest := ih fun item' hmem => h item' (List.mem_cons_of_mem _ hmem)
    have hsplit : grantedTo id ((item :: rest).map grant) =
        (if (grant item).1 = id then (grant item).2 else 0) + grantedTo id (rest.map grant) := rfl
    rw [hsplit, ← hrest, List.filter_cons]
    split
    next => rfl
    next hkeep =>
      rw [if_neg (h item (List.mem_cons_self ..) (by simpa using hkeep)), zero_add]

end

namespace Ledger

variable {l m n : Ledger Rat} {id key : String} {x : Rat} {grants later : List (String × Rat)}

/-- An id that is written has what was written, and the others keep what they have. -/
theorem get?_insert {β : Type} {l : Ledger β} {x : β} :
    (l.insert id x).get? key = if key = id then some x else l.get? key := by
  by_cases hid : id ∈ l.keys
  · rw [insert, dif_pos hid, get?_modify]
    split
    next hkey =>
      obtain ⟨y, hy⟩ := mem_keys_iff.mp hid
      rw [hkey, hy]
      rfl
    next => cases l.get? key <;> rfl
  · rw [get?, entries_insert_new hid, List.lookup_append, List.lookup_cons, List.lookup_nil]
    by_cases hkey : key = id
    · have hnone : l.entries.lookup key = none := lookup_eq_none_of_not_mem (hkey ▸ hid)
      rw [hnone, if_pos hkey, hkey, beq_self_eq_true]
      rfl
    · rw [if_neg hkey, beq_eq_false_iff_ne.mpr hkey]
      exact Option.or_none

theorem getD_eq_zero (h : id ∉ l.keys) : l.getD id 0 = 0 := by
  rw [getD, get?_eq_none_iff.mpr h, Option.getD_none]

/-- Adding to the amount of an id changes that amount and no other, whether it was there or not. -/
theorem getD_addTo :
    (l.addTo id x).getD key 0 = l.getD key 0 + if id = key then x else 0 := by
  rw [addTo, getD, get?_insert]
  by_cases hkey : key = id
  · rw [if_pos hkey, if_pos hkey.symm, hkey]
    rfl
  · rw [if_neg hkey, if_neg (Ne.symm hkey), add_zero]
    rfl

theorem sum_values_addTo : (l.addTo id x).values.sum = l.values.sum + x := by
  by_cases hid : id ∈ l.keys
  · obtain ⟨y, hy⟩ := mem_keys_iff.mp hid
    rw [addTo, insert, dif_pos hid, sum_values_modify hy, getD_eq hy, add_sub_cancel_left]
  · rw [addTo, values, entries_insert_new hid, getD_eq_zero hid, zero_add, List.map_append,
      List.sum_append]
    show l.values.sum + (x + 0) = l.values.sum + x
    rw [add_zero]

/-- Every entry of a list with distinct ids is all that its id is granted. -/
theorem grantedTo_eq_lookup {entries : List (String × Rat)}
    (h : (entries.map Prod.fst).Nodup) : grantedTo id entries = (entries.lookup id).getD 0 := by
  induction entries with
  | nil => rfl
  | cons e rest ih =>
    rw [List.map_cons, List.nodup_cons] at h
    have hsplit : grantedTo id (e :: rest) = (if e.1 = id then e.2 else 0) + grantedTo id rest :=
      rfl
    rw [hsplit, List.lookup_cons]
    by_cases he : id = e.1
    · have hothers : ∀ grant ∈ rest, grant.1 ≠ id := fun grant hgrant heq =>
        h.1 (he ▸ heq ▸ List.mem_map_of_mem hgrant)
      rw [if_pos he.symm, grantedTo_eq_zero hothers, add_zero, he, beq_self_eq_true]
      rfl
    · rw [if_neg (Ne.symm he), zero_add, ih h.2, beq_eq_false_iff_ne.mpr he]

/-- The entries of a ledger grant to each id the amount that is there for it. -/
theorem grantedTo_entries (l : Ledger Rat) (id : String) :
    grantedTo id l.entries = l.getD id 0 :=
  grantedTo_eq_lookup l.distinct

/-- Whether a ledger becomes another by grants. -/
structure Gains (l m : Ledger Rat) (grants : List (String × Rat)) : Prop where
  /-- Every id has what it is granted on top. -/
  getD_eq : ∀ id, m.getD id 0 = l.getD id 0 + grantedTo id grants
  /-- The total grows by all grants. -/
  sum_eq : m.values.sum = l.values.sum + (grants.map Prod.snd).sum

theorem Gains.refl (l : Ledger Rat) : l.Gains l [] :=
  ⟨fun _ => (add_zero _).symm, (add_zero _).symm⟩

theorem Gains.trans (h : l.Gains m grants) (h' : m.Gains n later) :
    l.Gains n (grants ++ later) where
  getD_eq id := by rw [h'.getD_eq, h.getD_eq, grantedTo_append, add_assoc]
  sum_eq := by rw [h'.sum_eq, h.sum_eq, List.map_append, List.sum_append, add_assoc]

/-- A grant of nothing can be left out. -/
theorem gains_zero (l : Ledger Rat) (id : String) : l.Gains l [(id, 0)] where
  getD_eq key := by simp [grantedTo]
  sum_eq := by simp

/-- Adding to the amount of an id is one grant. -/
theorem gains_addTo (l : Ledger Rat) (id : String) (x : Rat) :
    l.Gains (l.addTo id x) [(id, x)] where
  getD_eq key := by simp [getD_addTo, grantedTo]
  sum_eq := by simp [sum_values_addTo]

/-- A run of steps gains what the steps gain. -/
theorem Gains.foldl {σ τ : Type} (amounts : σ → Ledger Rat) {f : σ → τ → σ}
    {granted : τ → List (String × Rat)} {items : List τ}
    (h : ∀ item ∈ items, ∀ state, (amounts state).Gains (amounts (f state item)) (granted item))
    (state : σ) :
    (amounts state).Gains (amounts (items.foldl f state)) (items.flatMap granted) := by
  induction items generalizing state with
  | nil => exact .refl _
  | cons item rest ih =>
    rw [List.foldl_cons, List.flatMap_cons]
    exact (h item (List.mem_cons_self ..) state).trans
      (ih (fun item' hmem => h item' (List.mem_cons_of_mem _ hmem)) _)

/-- Amounts added one after the other. -/
theorem gains_foldl_addTo {τ : Type} (grant : τ → String × Rat) (items : List τ) (l : Ledger Rat) :
    l.Gains (items.foldl (fun l item => l.addTo (grant item).1 (grant item).2) l)
      (items.map grant) := by
  have hadd (item : τ) (_ : item ∈ items) (l : Ledger Rat) :
      l.Gains (l.addTo (grant item).1 (grant item).2) [grant item] := gains_addTo l _ _
  have h := Gains.foldl (fun l => l) hadd l
  rwa [← List.map_eq_flatMap] at h

end Ledger

end GoalBudget
