import GoalBudget.Proofs.Ledger.Total
import Mathlib.Order.Basic

/-!
# The order of ledgers

Two ledgers can have the same entries in different orders, `Reordered`. What is looked up in them is
the same (`get?_eq`), the entries are the same in number and sum, and once they are sorted nothing
tells them apart (`sorted_eq`): the ids are distinct, so that ascending order leaves no choice.

Whatever goes through `sorted`, through lookups or through sums is thus the same for both. The
strategies, the passes and the reviews do nothing else with the ledgers of a budget, and so the
order in which a household enters its items has no effect on what it is advised.
-/

namespace GoalBudget.Ledger

variable {β γ : Type} {l m : Ledger β}

/-- Whether two ledgers have the same entries, in whatever order. -/
def Reordered (l m : Ledger β) : Prop := l.entries.Perm m.entries

/-- Sorted entries ascend. -/
theorem pairwise_sorted (l : Ledger β) : l.sorted.entries.Pairwise fun a b => a.1 ≤ b.1 := by
  refine List.Pairwise.imp of_decide_eq_true (List.pairwise_mergeSort ?_ ?_ l.entries)
  · intro a b c hab hbc
    exact decide_eq_true (String.le_trans (of_decide_eq_true hab) (of_decide_eq_true hbc))
  · intro a b
    simpa using String.le_total a.1 b.1

namespace Reordered

variable (h : l.Reordered m)
include h

theorem get?_eq (id : String) : l.get? id = m.get? id := by
  rw [Option.ext_iff]
  intro x
  rw [get?_eq_some_iff, get?_eq_some_iff]
  exact h.mem_iff

theorem getD_eq (id : String) (default : β) : l.getD id default = m.getD id default := by
  rw [getD, getD, h.get?_eq]

theorem contains_eq (id : String) : l.contains id = m.contains id := by
  rw [Ledger.contains, Ledger.contains, Bool.eq_iff_iff, List.contains_iff_mem,
    List.contains_iff_mem]
  exact (List.Perm.map Prod.fst h).mem_iff

theorem sorted_eq : l.sorted = m.sorted := by
  have hperm : l.sorted.entries.Perm m.sorted.entries :=
    entries_sorted_perm.trans (List.Perm.trans h entries_sorted_perm.symm)
  refine ext_entries (List.Perm.eq_of_pairwise ?_ l.pairwise_sorted m.pairwise_sorted hperm)
  intro e e' he he' hle hge
  have hkey : e.1 = e'.1 := String.le_antisymm hle hge
  have hget := get?_of_mem (hperm.mem_iff.mp he)
  rw [hkey, get?_of_mem he', Option.some_inj] at hget
  exact Prod.ext hkey hget.symm

/-- The values are the same up to their order. -/
theorem values : l.values.Perm m.values := List.Perm.map Prod.snd h

/-- All entries of both changed in the same way. -/
theorem map (f : String → β → γ) : (l.map f).Reordered (m.map f) := List.Perm.map _ h

/-- One entry of both changed in the same way. -/
theorem modify (id : String) (f : β → β) : (l.modify id f).Reordered (m.modify id f) := h.map _

theorem sum_values_map (f : β → Rat) : (l.values.map f).sum = (m.values.map f).sum :=
  (h.values.map f).sum_eq

end Reordered

end GoalBudget.Ledger
