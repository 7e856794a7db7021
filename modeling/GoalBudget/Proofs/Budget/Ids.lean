import GoalBudget.Budget.Basic
import GoalBudget.Proofs.Ledger.Lookup

/-!
# Ids of a budget

No two items of a budget have the same id, whatever they are. `sharedIds` finds the first ledger
that has an id of one before it; here is what it means that it finds none.

Amounts of mandatory expenses and of flexible categories are listed in one ledger, and strategies
name goals and flexible categories in one list of variables. Both would lose an amount if two items
shared an id, so the facts below are what keeps sums of whole allocations from falling apart into
sums over each kind of item with a correction between them.
-/

namespace GoalBudget

/-- A list that shares no id with those before it. -/
theorem sharedIds_cons {seen ids : List String} {rest : List (List String)}
    (h : sharedIds seen (ids :: rest) = none) :
    (∀ id ∈ seen, id ∉ ids) ∧ sharedIds (seen ++ ids) rest = none := by
  unfold sharedIds at h
  split at h
  next hnone =>
    refine ⟨fun id hseen hid => ?_, h⟩
    rw [List.filter_eq_nil_iff] at hnone
    exact hnone id hid (List.contains_iff_mem.mpr hseen)
  next => cases h

/-- A list that shares no id with those before it does not change whether the rest does. -/
theorem sharedIds_of_disjoint {seen ids : List String} {rest : List (List String)}
    (h : ∀ id ∈ seen, id ∉ ids) (hrest : sharedIds (seen ++ ids) rest = none) :
    sharedIds seen (ids :: rest) = none := by
  have hnone : ids.filter seen.contains = [] := by
    rw [List.filter_eq_nil_iff]
    intro id hid hseen
    exact h id (List.contains_iff_mem.mp hseen) hid
  rw [sharedIds, hnone]
  exact hrest

namespace Budget

/-- No mandatory expense has the id of a flexible category. -/
theorem flexible_not_mem_mandatory (b : Budget Rat) (id : String)
    (h : id ∈ b.mandatory.keys) : id ∉ b.flexible.keys :=
  (sharedIds_cons (sharedIds_cons b.ids_distinct).2).1 id h

/-- No debt has the id of a mandatory expense or of a flexible category. -/
theorem debts_not_mem (b : Budget Rat) (id : String)
    (h : id ∈ b.mandatory.keys ∨ id ∈ b.flexible.keys) : id ∉ b.debts.keys := by
  have hflexible := (sharedIds_cons (sharedIds_cons b.ids_distinct).2).2
  exact (sharedIds_cons hflexible).1 id (List.mem_append.mpr h)

/-- No goal has the id of a mandatory expense or of a debt. -/
theorem goals_not_mem (b : Budget Rat) (id : String)
    (h : id ∈ b.mandatory.keys ∨ id ∈ b.debts.keys) : id ∉ b.goals.keys := by
  have hdebts := (sharedIds_cons (sharedIds_cons b.ids_distinct).2).2
  refine (sharedIds_cons (sharedIds_cons hdebts).2).1 id ?_
  rcases h with hmandatory | hdebt
  · exact List.mem_append_left _ (List.mem_append_left _ hmandatory)
  · exact List.mem_append_right _ hdebt

/-- No flexible category has the id of a goal. -/
theorem goals_not_mem_flexible (b : Budget Rat) (id : String) (h : id ∈ b.flexible.keys) :
    id ∉ b.goals.keys := by
  have hdebts := (sharedIds_cons (sharedIds_cons b.ids_distinct).2).2
  refine (sharedIds_cons (sharedIds_cons hdebts).2).1 id ?_
  exact List.mem_append_left _ (List.mem_append_right _ h)

theorem nodup_goals_flexible (b : Budget Rat) : (b.goals.keys ++ b.flexible.keys).Nodup :=
  List.nodup_append.mpr ⟨b.goals.distinct, b.flexible.distinct,
    fun _ hgoal _ hflexible heq => b.goals_not_mem_flexible _ hflexible (heq ▸ hgoal)⟩

end Budget

end GoalBudget
