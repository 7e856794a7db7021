import GoalBudget.Proofs.Allocation.Solve

/-!
# Which items have amounts

Exactly the items of a budget have amounts in its allocation. Rounding and passes change amounts and
no ids, so this does not depend on what is proposed, on the unit of rounding or on the bounds being
kept (`sameIds_normalize`). Mandatory expenses and flexible categories are listed one behind the
other (`Run.exists_entries_categories`).

The ids of a budget are all different, across its ledgers as well. So two ledgers merged have the
entries of both, and the sum that an allocation states is the sum of what it lists
(`Run.allocated_eq_listed`).
-/

namespace GoalBudget

variable {b : Budget Rat} {s : Scenario Rat} {p : Pools Rat} {amount : Rat}

/-! ## Passes -/

theorem keys_trim (floors : Ledger Rat) (state : Ledger Rat × Rat) :
    (trim amount floors state).1.keys = state.1.keys := by
  have hstep (state : Ledger Rat × Rat) (entry : String × Rat) :
      (trimStep amount state entry).1.keys = state.1.keys := by
    unfold trimStep
    split
    next => rfl
    next => exact Ledger.keys_modify ..
  unfold trim
  generalize excesses floors state.1 = entries
  induction entries generalizing state with
  | nil => rfl
  | cons entry rest ih => rw [List.foldl_cons, ih, hstep]

/-- Pools have the ids of others. -/
structure Pools.SameIds (p q : Pools Rat) : Prop where
  flexible : p.flexible.keys = q.flexible.keys
  goals : p.goals.keys = q.goals.keys

theorem sameIds_recoverDeficit : (recoverDeficit b s amount p).1.SameIds p where
  flexible := keys_trim _ _
  goals := (keys_trim _ _).trans (keys_trim _ _)

theorem sameIds_absorbSurplus : (absorbSurplus b s amount p).1.SameIds p := by
  unfold absorbSurplus
  dsimp only
  split
  next => exact ⟨rfl, keys_spread⟩
  next => exact ⟨keys_spread, keys_spread⟩

/-- No pass changes an id. -/
theorem sameIds_normalize (committed : Rat) (passes : Nat) :
    (normalize b s committed passes p).SameIds p := by
  induction passes generalizing p with
  | zero => exact ⟨rfl, rfl⟩
  | succ passes ih =>
    have hnext {q : Pools Rat} (h : q.SameIds p) : (normalize b s committed passes q).SameIds p :=
      ⟨ih.flexible.trans h.flexible, ih.goals.trans h.goals⟩
    unfold normalize
    dsimp only
    split
    next => exact ⟨rfl, rfl⟩
    next =>
      split
      next =>
        split
        next => exact sameIds_absorbSurplus
        next => exact hnext sameIds_absorbSurplus
      next =>
        split
        next => exact sameIds_recoverDeficit
        next => exact hnext sameIds_recoverDeficit

/-! ## The allocation -/

namespace Allocator.Run

variable {a : Allocator Rat} {r : Allocation Rat} {proposal : Proposal Rat} {start : Pools Rat}
  (h : a.Run b s r proposal start)
include h

theorem keys_goals : r.goals.keys.Perm b.goals.keys := by
  rw [h.goals_eq, (sameIds_normalize _ _).goals, (mapEntries_eq_ok h.goals_start).1]
  exact Ledger.keys_sorted_perm

theorem keys_debts : r.debts.keys.Perm b.debts.keys := by
  rw [h.debts_eq, keys_payments]
  exact Ledger.keys_sorted_perm

theorem keys_flexible : (normalize b s (settledFirst b proposal.debtExtra) maxPasses
    start).flexible.keys = b.flexible.sorted.keys := by
  rw [(sameIds_normalize _ _).flexible]
  exact (mapEntries_eq_ok h.flexible_start).1

/-- Mandatory minimums come first, and behind them what the passes leave flexible categories. -/
theorem exists_entries_categories : ∃ flexible : Ledger Rat,
    flexible.keys = b.flexible.sorted.keys ∧
    r.categories.entries = (b.mandatory.sorted.map fun _ c => c.minimum).entries ++
      flexible.entries ∧
    r.allocated = settledFirst b proposal.debtExtra + flexible.values.sum + r.goals.values.sum := by
  refine ⟨_, h.keys_flexible, ?_, ?_⟩
  · rw [h.categories_eq, Ledger.entries_merge (mandatory_not_mem h.keys_flexible)]
  · rw [h.allocated_eq, h.goals_eq]

theorem keys_categories : r.categories.keys.Perm (b.mandatory.keys ++ b.flexible.keys) := by
  obtain ⟨flexible, hkeys, hentries, _⟩ := h.exists_entries_categories
  rw [Ledger.keys, hentries, List.map_append]
  refine List.Perm.append ?_ ?_
  · exact (List.Perm.of_eq (Ledger.keys_map _ _)).trans Ledger.keys_sorted_perm
  · exact (List.Perm.of_eq hkeys).trans Ledger.keys_sorted_perm

/-- The stated sum is the sum of what is listed. -/
theorem allocated_eq_listed : r.allocated = r.categories.values.sum +
    (r.debts.values.map (·.total)).sum + r.goals.values.sum := by
  obtain ⟨flexible, _, hentries, hallocated⟩ := h.exists_entries_categories
  have hmandatory : (b.mandatory.sorted.map fun _ c => c.minimum).values.sum =
      (b.mandatory.values.map (·.minimum)).sum := by
    rw [Ledger.sum_values_map_sorted, Ledger.values_map_values]
  have hcategories : r.categories.values.sum =
      (b.mandatory.values.map (·.minimum)).sum + flexible.values.sum := by
    rw [← hmandatory, Ledger.values, hentries, List.map_append, List.sum_append]
    rfl
  rw [hallocated, hcategories, h.debts_eq, settledFirst]
  ring

end Allocator.Run

end GoalBudget
