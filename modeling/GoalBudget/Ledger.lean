/-!
# Ledgers

A ledger holds one entry per id and keeps the order in which the ids first appeared. It is what
every keyed collection of the library is: the items of a budget, the amounts that a strategy
proposes, the amounts of an allocation, and a record read from outside. Section 3 of the
specification calls these keyed collections and maps.

Writing an id again replaces its entry where it stands (`insert`), so a list of entries with
repeated ids keeps the place of the first and the value of the last (`ofList`), and the same goes
for a second ledger written into a first (`merge`). That the ids are distinct is part of the type,
so it holds of every ledger there is.

What depends on an order goes through `sorted`, by ascending id, and never through the order of the
entries. That is what makes the strategies deterministic.
-/

namespace GoalBudget

/-- Entries by id, in order of first appearance. -/
structure Ledger (β : Type) where
  /-- The ids with their entries. -/
  entries : List (String × β)
  /-- No id appears twice. -/
  distinct : (entries.map Prod.fst).Nodup

namespace Ledger

variable {β γ : Type}

/-- The ledger without entries. -/
def empty : Ledger β := ⟨[], List.nodup_nil⟩

instance : EmptyCollection (Ledger β) := ⟨empty⟩

instance : Inhabited (Ledger β) := ⟨empty⟩

/-- The ids in order of first appearance. -/
def keys (l : Ledger β) : List String := l.entries.map Prod.fst

/-- The entries without their ids. -/
def values (l : Ledger β) : List β := l.entries.map Prod.snd

/-- The entry of an id. -/
def get? (l : Ledger β) (id : String) : Option β := l.entries.lookup id

/-- The entry of an id, or a stand-in for it. -/
def getD (l : Ledger β) (id : String) (default : β) : β := (l.get? id).getD default

/-- Whether an id has an entry. -/
def contains (l : Ledger β) (id : String) : Bool := l.keys.contains id

/-- How many entries there are. -/
def size (l : Ledger β) : Nat := l.entries.length

/-- Every entry replaced by a function of its id and itself. -/
def map (f : String → β → γ) (l : Ledger β) : Ledger γ where
  entries := l.entries.map fun e => (e.1, f e.1 e.2)
  distinct := by simpa [Function.comp_def] using l.distinct

/-- The entries that pass a test. -/
def filter (p : String → β → Bool) (l : Ledger β) : Ledger β where
  entries := l.entries.filter fun e => p e.1 e.2
  distinct := l.distinct.sublist ((List.filter_sublist).map _)

/-- The entry of one id changed, all others kept. -/
def modify (l : Ledger β) (id : String) (f : β → β) : Ledger β :=
  l.map fun key x => if key = id then f x else x

theorem keys_map (f : String → β → γ) (l : Ledger β) : (l.map f).keys = l.keys := by
  simp [keys, map, Function.comp_def]

theorem keys_modify (l : Ledger β) (id : String) (f : β → β) : (l.modify id f).keys = l.keys :=
  keys_map _ l

/-- An id written: at its place if it has one, else at the end. -/
def insert (l : Ledger β) (id : String) (x : β) : Ledger β :=
  if h : id ∈ l.keys then l.modify id fun _ => x
  else
    { entries := l.entries ++ [(id, x)]
      distinct := by
        rw [List.map_append, List.nodup_append]
        refine ⟨l.distinct, by simp, ?_⟩
        intro a ha b hb hab
        simp only [List.map_cons, List.map_nil, List.mem_singleton] at hb
        subst hab hb
        exact h ha }

/-- A ledger written entry by entry. -/
def ofList (entries : List (String × β)) : Ledger β :=
  entries.foldl (fun l e => l.insert e.1 e.2) empty

/-- All entries of a second ledger written into a first. -/
def merge (l m : Ledger β) : Ledger β :=
  m.entries.foldl (fun l e => l.insert e.1 e.2) l

/-- The entries by ascending id. -/
def sorted (l : Ledger β) : Ledger β where
  entries := l.entries.mergeSort fun a b => a.1 ≤ b.1
  distinct := ((List.mergeSort_perm _ _).map _).nodup_iff.2 l.distinct

end Ledger

end GoalBudget
