import GoalBudget.Proofs.Ledger.Lookup
import GoalBudget.Proofs.Number.Exact

/-!
# Totals of ledgers

The sum of the entries of a ledger of amounts, and how it follows the entries: `sum_values_modify`
for one entry changed, `sum_values_foldl_add` for many entries raised one after the other,
`sum_values_filter` for some entries kept.

A pass over an allocation changes entries one at a time and keeps count of what it has moved. That
the count is right is a statement about totals; that nothing exceeds its bound is one about entries.
The last lemmas connect the two: two ledgers with the same ids are compared entry by entry
(`sum_values_le_of_le`), and where no entry grows, none loses more than all of them together
(`sub_le_sum_sub`).
-/

namespace GoalBudget

/-- Items that are among others add up to no more than those. -/
theorem sum_map_le_of_subset {τ : Type} {f : τ → Rat} (hnonneg : ∀ x, 0 ≤ f x) {xs ys : List τ}
    (hnodup : xs.Nodup) (hsubset : xs ⊆ ys) : (xs.map f).sum ≤ (ys.map f).sum := by
  obtain ⟨listed, hperm, hsublist⟩ := List.subperm_of_subset hnodup hsubset
  rw [← (hperm.map f).sum_eq]
  refine (hsublist.map f).sum_le_sum fun y hy => ?_
  obtain ⟨x, _, rfl⟩ := List.mem_map.mp hy
  exact hnonneg x

namespace Ledger

variable {β : Type} {l m : Ledger Rat} {id : String} {x : Rat}

theorem values_map (f : String → β → Rat) (l : Ledger β) :
    (l.map f).values = l.entries.map fun e => f e.1 e.2 := by
  simp [values, map, Function.comp_def]

/-- An amount that is read is not negative if no amount there is. -/
theorem getD_nonneg (h : ∀ x, l.get? id = some x → 0 ≤ x) : 0 ≤ l.getD id 0 := by
  rw [getD]
  cases hx : l.get? id with
  | none => exact le_refl 0
  | some x => exact h x hx

theorem values_map_values (f : β → Rat) (l : Ledger β) :
    (l.map fun _ x => f x).values = l.values.map f := by
  simp [values, map]

theorem sum_values_map_sorted (f : String → β → Rat) (l : Ledger β) :
    (l.sorted.map f).values.sum = (l.map f).values.sum :=
  ((map_entries_sorted_perm f).map Prod.snd).sum_eq

/-- One entry changed in a list with distinct keys. -/
theorem sum_map_change {entries : List (String × Rat)} (h : (entries.map Prod.fst).Nodup)
    (hid : (id, x) ∈ entries) (f : Rat → Rat) :
    (entries.map fun e => if e.1 = id then f e.2 else e.2).sum =
      (entries.map Prod.snd).sum + (f x - x) := by
  induction entries with
  | nil => cases hid
  | cons e rest ih =>
    rw [List.map_cons, List.nodup_cons] at h
    rw [List.map_cons, List.map_cons, List.sum_cons, List.sum_cons]
    rcases List.mem_cons.mp hid with rfl | hrest
    · have hsame : (rest.map fun e => if e.1 = id then f e.2 else e.2) = rest.map Prod.snd := by
        apply List.map_congr_left
        intro p hp
        exact if_neg fun he => h.1 (List.mem_map.mpr ⟨p, hp, he⟩)
      rw [hsame, if_pos rfl]
      ring
    · have hne : e.1 ≠ id := fun he => h.1 (List.mem_map.mpr ⟨(id, x), hrest, he.symm⟩)
      rw [ih h.2 hrest, if_neg hne]
      ring

theorem sum_values_modify (h : l.get? id = some x) (f : Rat → Rat) :
    (l.modify id f).values.sum = l.values.sum + (f x - x) := by
  rw [modify, values_map]
  exact sum_map_change l.distinct (get?_eq_some_iff.mp h) f

/-- Entries raised one after the other: the total grows by all that is added. -/
theorem sum_values_foldl_add (g : String → β → Rat) (changes : List (String × β))
    (h : ∀ e ∈ changes, e.1 ∈ l.keys) :
    (changes.foldl (fun l e => l.modify e.1 (· + g e.1 e.2)) l).values.sum =
      l.values.sum + (changes.map fun e => g e.1 e.2).sum := by
  induction changes generalizing l with
  | nil => simp
  | cons e rest ih =>
    obtain ⟨x, hx⟩ := mem_keys_iff.mp (h e (List.mem_cons_self ..))
    have hrest : ∀ p ∈ rest, p.1 ∈ (l.modify e.1 (· + g e.1 e.2)).keys := by
      intro p hp
      rw [keys_modify]
      exact h p (List.mem_cons_of_mem _ hp)
    rw [List.foldl_cons, ih hrest, sum_values_modify hx, List.map_cons, List.sum_cons]
    ring

/-- The entries of a ledger read under the ids of another one that has the same ids. -/
theorem sum_getD_keys (h : l.keys.Perm m.keys) :
    (l.keys.map (m.getD · 0)).sum = m.values.sum := by
  rw [(h.map _).sum_eq, map_getD_keys]

/-- What one entry loses is no more than what all lose, if none grows. -/
theorem sub_le_sum_sub {y : Rat} (hkeys : m.keys = l.keys)
    (hle : ∀ key x y, l.get? key = some x → m.get? key = some y → y ≤ x)
    (hx : l.get? id = some x) (hy : m.get? id = some y) :
    x - y ≤ l.values.sum - m.values.sum := by
  have hlosses : l.values.sum - m.values.sum =
      (l.keys.map fun key => l.getD key 0 - m.getD key 0).sum := by
    rw [← map_getD_keys 0 (l := l), ← map_getD_keys 0 (l := m), hkeys, sub_eq_iff_eq_add,
      ← List.sum_map_add]
    simp only [sub_add_cancel]
  have hnonneg : ∀ loss ∈ l.keys.map fun key => l.getD key 0 - m.getD key 0, 0 ≤ loss := by
    intro loss hloss
    obtain ⟨key, hkey, rfl⟩ := List.mem_map.mp hloss
    obtain ⟨u, hu⟩ := mem_keys_iff.mp hkey
    obtain ⟨v, hv⟩ := mem_keys_iff.mp (hkeys ▸ hkey)
    rw [getD_eq hu, getD_eq hv]
    exact sub_nonneg.mpr (hle key u v hu hv)
  have hloss : l.getD id 0 - m.getD id 0 = x - y := by rw [getD_eq hx, getD_eq hy]
  rw [hlosses, ← hloss]
  exact List.single_le_sum hnonneg _ (List.mem_map.mpr ⟨id, mem_keys_of_get? hx, rfl⟩)

/-- An id without an entry adds nothing to the entries read under some ids. -/
theorem sum_getD_filter (l : Ledger Rat) (ids : List String) :
    ((ids.filter (· ∈ l.keys)).map (l.getD · 0)).sum = (ids.map (l.getD · 0)).sum := by
  induction ids with
  | nil => rfl
  | cons id rest ih =>
    rw [List.map_cons, List.sum_cons, ← ih, List.filter_cons]
    split
    next => rw [List.map_cons, List.sum_cons]
    next hid =>
      have hnone : l.get? id = none := get?_eq_none_iff.mpr (by simpa using hid)
      rw [getD, hnone, Option.getD_none, zero_add]

/-- Entries read under different ids add up to no more than all entries, if nothing is negative. -/
theorem sum_getD_le {ids : List String} (hids : ids.Nodup) (h : ∀ x ∈ l.values, 0 ≤ x) :
    (ids.map (l.getD · 0)).sum ≤ l.values.sum := by
  have hsubset : ids.filter (· ∈ l.keys) ⊆ l.keys := fun id hid => by
    simpa using (List.mem_filter.mp hid).2
  have hnonneg (id : String) : 0 ≤ l.getD id 0 :=
    getD_nonneg fun x hx => h x (mem_values_of_get? hx)
  rw [← l.sum_getD_filter, ← map_getD_keys 0 (l := l)]
  exact sum_map_le_of_subset hnonneg (hids.sublist List.filter_sublist) hsubset

/-- Entries read under different ids that are all ids there are, and maybe more. -/
theorem sum_getD_eq {ids : List String} (hids : ids.Nodup) (h : l.keys ⊆ ids) :
    (ids.map (l.getD · 0)).sum = l.values.sum := by
  have hperm : (ids.filter (· ∈ l.keys)).Perm l.keys := by
    have hfiltered : (ids.filter (· ∈ l.keys)).Nodup := hids.sublist List.filter_sublist
    refine (List.perm_ext_iff_of_nodup hfiltered l.distinct).mpr fun id => ?_
    rw [List.mem_filter, decide_eq_true_eq]
    exact and_iff_right_of_imp fun hid => h hid
  rw [← l.sum_getD_filter, (hperm.map _).sum_eq, map_getD_keys]

/-- The entries with some of the ids there are, in whatever order these are listed. -/
theorem sum_values_filter {ids : List String} (hids : ids.Nodup)
    (hsubset : ids ⊆ l.keys) :
    (l.filter fun key _ => ids.contains key).values.sum = (ids.map (l.getD · 0)).sum := by
  have hkeys : ids.Perm (l.filter fun key _ => ids.contains key).keys := by
    refine (List.perm_ext_iff_of_nodup hids (l.filter _).distinct).mpr fun id => ?_
    rw [← keys, mem_keys_iff]
    simp only [get?_filter, List.contains_iff_mem]
    constructor
    · intro hid
      obtain ⟨x, hx⟩ := mem_keys_iff.mp (hsubset hid)
      exact ⟨x, hx, hid⟩
    · rintro ⟨_, _, hid⟩
      exact hid
  rw [← map_getD_keys 0, ← (hkeys.map _).sum_eq]
  refine congrArg List.sum (List.map_congr_left fun id hid => ?_)
  obtain ⟨x, hx⟩ := mem_keys_iff.mp (hsubset hid)
  have hkept : (l.filter fun key _ => ids.contains key).get? id = some x :=
    (get?_filter _).mpr ⟨hx, List.contains_iff_mem.mpr hid⟩
  rw [getD_eq hkept, getD_eq hx]

/-- Entries that are each close to what another ledger has under their ids. -/
theorem sum_values_le {slack : Rat}
    (h : ∀ key x, l.get? key = some x → x ≤ m.getD key 0 + slack) :
    l.values.sum ≤ (l.keys.map (m.getD · 0)).sum + l.size * slack := by
  have hslack : (l.keys.map fun key => m.getD key 0 + slack).sum =
      (l.keys.map (m.getD · 0)).sum + l.size * slack := by
    rw [List.sum_map_add, List.map_const', List.sum_replicate, length_keys, nsmul_eq_mul]
  rw [← hslack, ← map_getD_keys 0 (l := l)]
  refine List.sum_le_sum fun key hkey => ?_
  obtain ⟨x, hx⟩ := mem_keys_iff.mp hkey
  rw [getD_eq hx]
  exact h key x hx

/-- Entries that are each no more than what another ledger has under their ids. -/
theorem sum_values_le_of_le (hkeys : l.keys.Perm m.keys)
    (h : ∀ key x y, l.get? key = some x → m.get? key = some y → x ≤ y) :
    l.values.sum ≤ m.values.sum := by
  rw [← sum_getD_keys hkeys, ← map_getD_keys 0 (l := l)]
  refine List.sum_le_sum fun key hkey => ?_
  obtain ⟨x, hx⟩ := mem_keys_iff.mp hkey
  obtain ⟨y, hy⟩ := mem_keys_iff.mp (hkeys.mem_iff.mp hkey)
  rw [getD_eq hx, getD_eq hy]
  exact h key x y hx hy

theorem sum_values_filter_pos (l : Ledger Rat) :
    (l.filter fun _ x => 0 < x).values.sum = (l.map fun _ x => max 0 x).values.sum := by
  rw [values_map, values, filter]
  dsimp only
  induction l.entries with
  | nil => rfl
  | cons e rest ih =>
    rw [List.filter_cons, List.map_cons, List.sum_cons, ← ih]
    split
    next h => rw [List.map_cons, List.sum_cons, max_eq_right (of_decide_eq_true h).le]
    next h => rw [max_eq_left (not_lt.mp fun hlt => h (decide_eq_true hlt)), zero_add]

end Ledger

end GoalBudget
