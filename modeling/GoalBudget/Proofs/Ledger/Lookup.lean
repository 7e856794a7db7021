import GoalBudget.Ledger
import Mathlib.Data.List.Perm.Basic

/-!
# Reading ledgers

What the operations on ledgers do to the entry of an id. As ids are distinct, an entry is found
under its id (`get?_eq_some_iff`), and a ledger is known by its list of entries (`ext_entries`).
Order matters only for `sorted` and `insert`; their effect on lookups does not mention it.

The lemmas about one operation each are simp lemmas where they lead to something simpler. Most
proofs about ledgers do not get further than these, and none of them unfolds an operation again.

Three results say when a way of writing a ledger has no effect but the one intended. Changing one
entry after the other, each id at most once, is changing all of them at once (`foldl_modify`). A
list without repeated ids is written as it is (`entries_ofList`). A ledger merged into one with
other ids is put behind it (`entries_merge`).
-/

namespace GoalBudget.Ledger

variable {β γ : Type} {l m : Ledger β} {id : String} {x : β}

/-- A ledger is its entries; that the ids are distinct is no further information. -/
theorem ext_entries (h : l.entries = m.entries) : l = m := by
  cases l
  cases m
  cases h
  rfl

/-- In a list with distinct keys a key is looked up to its entry. -/
theorem lookup_eq_some_iff {entries : List (String × β)} (h : (entries.map Prod.fst).Nodup) :
    entries.lookup id = some x ↔ (id, x) ∈ entries := by
  induction entries with
  | nil => simp
  | cons e rest ih =>
    rw [List.map_cons, List.nodup_cons] at h
    rw [List.lookup_cons, List.mem_cons]
    by_cases he : id = e.1
    · subst he
      have hnot : (e.1, x) ∉ rest := fun hm => h.1 (List.mem_map.mpr ⟨(e.1, x), hm, rfl⟩)
      simp [hnot, Prod.ext_iff, eq_comm]
    · have hbeq : (id == e.1) = false := beq_eq_false_iff_ne.mpr he
      have hne : (id, x) ≠ e := fun h' => he (congrArg Prod.fst h')
      rw [hbeq, ih h.2]
      simp [hne]

/-- Nothing is found under a name that does not occur. -/
theorem lookup_eq_none_of_not_mem {entries : List (String × β)} (h : id ∉ entries.map Prod.fst) :
    entries.lookup id = none := by
  rw [List.lookup_eq_none_iff]
  intro e he
  rw [bne_iff_ne]
  intro heq
  exact h (heq ▸ List.mem_map_of_mem he)

/-- What is found under an id is the entry there is with that id. -/
theorem get?_eq_some_iff : l.get? id = some x ↔ (id, x) ∈ l.entries :=
  lookup_eq_some_iff l.distinct

theorem mem_keys_iff : id ∈ l.keys ↔ ∃ x, l.get? id = some x := by
  simp [keys, get?_eq_some_iff]

theorem mem_keys_of_get? (h : l.get? id = some x) : id ∈ l.keys := mem_keys_iff.mpr ⟨x, h⟩

theorem get?_eq_none_iff : l.get? id = none ↔ id ∉ l.keys := by
  rw [mem_keys_iff, Option.eq_none_iff_forall_ne_some]
  simp

theorem mem_values_of_get? (h : l.get? id = some x) : x ∈ l.values :=
  List.mem_map.mpr ⟨(id, x), get?_eq_some_iff.mp h, rfl⟩

/-- Every entry is found under its id. -/
theorem get?_of_mem {e : String × β} (h : e ∈ l.entries) : l.get? e.1 = some e.2 :=
  get?_eq_some_iff.mpr h

theorem getD_eq {default : β} (h : l.get? id = some x) : l.getD id default = x := by
  rw [getD, h, Option.getD_some]

theorem length_keys : l.keys.length = l.size := List.length_map _

theorem map_getD_keys (default : β) : l.keys.map (l.getD · default) = l.values := by
  rw [keys, values, List.map_map]
  apply List.map_congr_left
  intro e he
  exact getD_eq (get?_of_mem he)

@[simp] theorem get?_empty : (∅ : Ledger β).get? id = none := rfl

@[simp] theorem getD_empty (default : β) : (∅ : Ledger β).getD id default = default := rfl

/-! ## All entries changed, some kept, one changed -/

/-- Changing all entries changes what is found, and finds nothing new. -/
@[simp] theorem get?_map (f : String → β → γ) : (l.map f).get? id = (l.get? id).map (f id) := by
  cases h : l.get? id with
  | none =>
    rw [get?_eq_none_iff] at h
    rw [Option.map_none, get?_eq_none_iff, keys_map]
    exact h
  | some x =>
    rw [Option.map_some, get?_eq_some_iff]
    exact List.mem_map.mpr ⟨(id, x), get?_eq_some_iff.mp h, rfl⟩

/-- What is found among the entries kept was there before and passes the test. -/
theorem get?_filter (p : String → β → Bool) :
    (l.filter p).get? id = some x ↔ l.get? id = some x ∧ p id x = true := by
  rw [get?_eq_some_iff, get?_eq_some_iff]
  exact List.mem_filter

/-- Changing the entry of an id changes what is found under it and nothing else. -/
theorem get?_modify (key : String) (f : β → β) :
    (l.modify key f).get? id = (l.get? id).map fun x => if id = key then f x else x :=
  get?_map _

theorem map_map {δ : Type} (f : String → β → γ) (g : String → γ → δ) :
    (l.map f).map g = l.map fun key x => g key (f key x) :=
  ext_entries (by simp [map])

/-- Changes that agree on the entries there are lead to the same ledger. -/
theorem map_congr {f g : String → β → γ} (h : ∀ key x, (key, x) ∈ l.entries → f key x = g key x) :
    l.map f = l.map g := by
  apply ext_entries
  apply List.map_congr_left
  intro e he
  rw [h e.1 e.2 he]

theorem map_self (f : String → β → β) (h : ∀ key x, f key x = x) : l.map f = l :=
  ext_entries (by simp [map, h])

/-- Only what becomes of the entry itself matters when it is changed. -/
theorem modify_congr {f g : β → β} (hx : l.get? id = some x) (hfg : f x = g x) :
    l.modify id f = l.modify id g := by
  refine map_congr fun key y hmem => ?_
  by_cases hkey : key = id
  · subst hkey
    have hy : y = x := Option.some.inj ((get?_of_mem hmem).symm.trans hx)
    rw [if_pos rfl, if_pos rfl, hy, hfg]
  · rw [if_neg hkey, if_neg hkey]

/-- Changing one entry after the other, no id twice, is changing all of them at once. -/
theorem foldl_modify (f : String → γ → β → β) (changes : List (String × γ))
    (h : (changes.map Prod.fst).Nodup) (l : Ledger β) :
    changes.foldl (fun l e => l.modify e.1 (f e.1 e.2)) l =
      l.map fun key x => (changes.lookup key).elim x fun c => f key c x := by
  induction changes generalizing l with
  | nil => exact (map_self _ fun _ _ => rfl).symm
  | cons e rest ih =>
    rw [List.map_cons, List.nodup_cons] at h
    rw [List.foldl_cons, ih h.2, modify, map_map]
    apply map_congr
    intro key x _
    rw [List.lookup_cons]
    by_cases hk : key = e.1
    · -- the first change of a key is the only one
      subst hk
      simp [lookup_eq_none_of_not_mem h.1]
    · have hbeq : (key == e.1) = false := beq_eq_false_iff_ne.mpr hk
      simp [hbeq, hk]

/-! ## Order -/

theorem entries_sorted_perm : l.sorted.entries.Perm l.entries := List.mergeSort_perm _ _

@[simp] theorem entries_sorted_empty : (∅ : Ledger β).sorted.entries = [] :=
  List.mergeSort_nil

theorem keys_sorted_perm : l.sorted.keys.Perm l.keys := entries_sorted_perm.map _

theorem mem_entries_sorted {e : String × β} : e ∈ l.sorted.entries ↔ e ∈ l.entries :=
  entries_sorted_perm.mem_iff

/-- Sorting does not matter to what is found. -/
@[simp] theorem get?_sorted : l.sorted.get? id = l.get? id := by
  rw [Option.ext_iff]
  intro x
  rw [get?_eq_some_iff, get?_eq_some_iff]
  exact mem_entries_sorted

theorem map_entries_sorted_perm (f : String → β → γ) :
    (l.sorted.map f).entries.Perm (l.map f).entries :=
  entries_sorted_perm.map _

/-- Sorting looks at ids only. -/
theorem sorted_map (f : String → β → γ) (l : Ledger β) :
    (l.map f).sorted = l.sorted.map f := by
  apply ext_entries
  symm
  apply List.map_mergeSort
  intro _ _ _ _
  rfl

/-! ## Entries written -/

theorem entries_insert_new (h : id ∉ l.keys) :
    (l.insert id x).entries = l.entries ++ [(id, x)] := by
  rw [insert, dif_neg h]

/-- An entry after writing one was there before or is the one written. -/
theorem mem_entries_insert {e : String × β} (h : e ∈ (l.insert id x).entries) :
    e ∈ l.entries ∨ e = (id, x) := by
  rw [insert] at h
  split at h
  next =>
    obtain ⟨p, hp, rfl⟩ := List.mem_map.mp h
    by_cases hk : p.1 = id
    · right
      simp [hk]
    · left
      simpa [hk] using hp
  next => simpa using h

/-- An entry after writing many was there before or is among those written. -/
theorem mem_entries_foldl_insert {entries : List (String × β)} {e : String × β}
    (h : e ∈ (entries.foldl (fun l e => l.insert e.1 e.2) l).entries) :
    e ∈ l.entries ∨ e ∈ entries := by
  induction entries generalizing l with
  | nil => exact .inl h
  | cons p rest ih =>
    rcases ih h with h | h
    · rcases mem_entries_insert h with h | h
      · exact .inl h
      · exact .inr (h ▸ List.mem_cons_self ..)
    · exact .inr (List.mem_cons_of_mem _ h)

/-- A ledger written from a list has no other entries than the list. -/
theorem mem_of_mem_ofList {entries : List (String × β)} {e : String × β}
    (h : e ∈ (ofList entries).entries) : e ∈ entries :=
  (mem_entries_foldl_insert h).resolve_left (List.not_mem_nil)

/-- New ids with distinct keys are written behind the entries there are. -/
theorem entries_foldl_insert {entries : List (String × β)}
    (h : (l.keys ++ entries.map Prod.fst).Nodup) :
    (entries.foldl (fun l e => l.insert e.1 e.2) l).entries = l.entries ++ entries := by
  induction entries generalizing l with
  | nil => rw [List.foldl_nil, List.append_nil]
  | cons e rest ih =>
    have hnew : e.1 ∉ l.keys := by
      rw [List.map_cons, List.nodup_append] at h
      exact fun hm => h.2.2 _ hm _ (List.mem_cons_self ..) rfl
    have hkeys : (l.insert e.1 e.2).keys = l.keys ++ [e.1] := by
      rw [keys, entries_insert_new hnew, List.map_append]
      rfl
    rw [List.foldl_cons, ih (by rw [hkeys]; simpa using h), entries_insert_new hnew]
    simp

theorem entries_ofList {entries : List (String × β)} (h : (entries.map Prod.fst).Nodup) :
    (ofList entries).entries = entries :=
  entries_foldl_insert (l := empty) h

/-- A ledger with other ids is written behind the entries there are. -/
theorem entries_merge (h : ∀ id ∈ l.keys, id ∉ m.keys) :
    (l.merge m).entries = l.entries ++ m.entries :=
  entries_foldl_insert
    (List.nodup_append.mpr ⟨l.distinct, m.distinct, fun a ha _ hb hab => h a ha (hab ▸ hb)⟩)

/-- An entry of the first ledger is found in the merged one. -/
theorem get?_merge_left (h : ∀ id ∈ l.keys, id ∉ m.keys) (hid : l.get? id = some x) :
    (l.merge m).get? id = some x := by
  rw [get?_eq_some_iff, entries_merge h]
  exact List.mem_append_left _ (get?_eq_some_iff.mp hid)

/-- An entry of the second ledger is found in the merged one. -/
theorem get?_merge_right (h : ∀ id ∈ l.keys, id ∉ m.keys) (hid : m.get? id = some x) :
    (l.merge m).get? id = some x := by
  rw [get?_eq_some_iff, entries_merge h]
  exact List.mem_append_right _ (get?_eq_some_iff.mp hid)

end GoalBudget.Ledger
