import GoalBudget.Proofs.Allocation.Keys
import GoalBudget.Proofs.Review.Feasibility
import Mathlib.Algebra.Module.Submodule.Lattice
import Mathlib.Computability.Primrec.List
import Mathlib.Data.List.Permutation

/-!
# Reviews add up

A summary counts every amount of an allocation in exactly one of its four groups (`CountedOnce`), so
its sum and its surplus are those of the allocation. After a change of income all that is gained or
lost goes to goals, extra debt payments, flexible spending and the surplus: what is paid for
mandatory expenses is their minimums both times, and what is due to debts does not depend on the
income (`Run.total_sub_debtExtra`).

That no category is counted twice rests on ids: no id is in two ledgers of a budget, so a category
that is listed is either mandatory or flexible. Nothing is assumed about the allocator, its solvers
or its unit.

Main result: `review_adds_up`.
-/

namespace GoalBudget

/-- Whether the amounts of an allocation are those of the items of a budget, and each of them is
counted in the group that its item belongs to. No id appears twice in a ledger or in two ledgers of
the budget, so no amount is counted in two groups. -/
structure Allocation.CountedOnce (b : Budget Rat) (r : Allocation Rat) : Prop where
  /-- Every category is a mandatory expense or flexible. -/
  categories : r.categories.keys.Perm (b.mandatory.keys ++ b.flexible.keys)
  /-- Every contribution goes to a goal of the budget. -/
  contributions : r.goals.keys.Perm b.goals.keys
  /-- Every payment goes to a debt of the budget. -/
  payments : r.debts.keys.Perm b.debts.keys
  mandatory : (r.summary b).mandatory = (b.mandatory.keys.map (r.categories.getD · 0)).sum
  flexible : (r.summary b).flexible = (b.flexible.keys.map (r.categories.getD · 0)).sum
  goals : (r.summary b).goals = (b.goals.keys.map (r.goals.getD · 0)).sum
  debts : (r.summary b).debts =
    (b.debts.keys.map fun key => (r.debts.get? key).elim 0 (·.total)).sum

namespace Allocator

variable {a : Allocator Rat} {b c : Budget Rat} {s : Scenario Rat} {r q : Allocation Rat}
  {proposal : Proposal Rat} {start : Pools Rat}

/-! ## Summaries -/

/-- The four groups have all amounts and nothing twice. -/
theorem Run.countedOnce (h : a.Run b s r proposal start) : r.CountedOnce b where
  categories := h.keys_categories
  contributions := h.keys_goals
  payments := h.keys_debts
  mandatory := by
    refine (total_eq_sum _).trans (Ledger.sum_values_filter b.mandatory.distinct fun id hid => ?_)
    exact h.keys_categories.mem_iff.mpr (List.mem_append_left _ hid)
  flexible := by
    refine (total_eq_sum _).trans (Ledger.sum_values_filter b.flexible.distinct fun id hid => ?_)
    exact h.keys_categories.mem_iff.mpr (List.mem_append_right _ hid)
  goals := by
    refine (total_eq_sum _).trans ?_
    rw [← Ledger.map_getD_keys 0, (h.keys_goals.map _).sum_eq]
  debts := by
    refine (total_eq_sum _).trans ?_
    rw [← (h.keys_debts.map _).sum_eq, Ledger.keys, Ledger.values, List.map_map, List.map_map]
    refine congrArg List.sum (List.map_congr_left fun e he => ?_)
    rw [Function.comp_apply, Function.comp_apply, Ledger.get?_of_mem he]
    rfl

/-- The sum of a summary is that of the allocation. -/
theorem Run.summary_totalAllocated (h : a.Run b s r proposal start) :
    (r.summary b).totalAllocated = r.allocated := by
  have hcategories : (r.summary b).mandatory + (r.summary b).flexible =
      r.categories.values.sum := by
    rw [h.countedOnce.mandatory, h.countedOnce.flexible, ← List.sum_append, ← List.map_append,
      ← (h.keys_categories.map _).sum_eq, Ledger.map_getD_keys]
  have hdebts : (r.summary b).debts = (r.debts.values.map (·.total)).sum := total_eq_sum _
  have hgoals : (r.summary b).goals = r.goals.values.sum := total_eq_sum _
  rw [h.allocated_eq_listed, ← hcategories, ← hdebts, ← hgoals]
  rfl

theorem Run.summary_surplus (h : a.Run b s r proposal start) :
    (r.summary b).surplus = r.surplus := by
  rw [h.surplus_eq, ← h.summary_totalAllocated]
  rfl

/-- Flexible categories get what the passes leave them. -/
theorem Run.summary_flexible (h : a.Run b s r proposal start) : (r.summary b).flexible =
    (normalize b s (settledFirst b proposal.debtExtra) maxPasses start).flexible.values.sum := by
  have hperm := (List.Perm.of_eq h.keys_flexible).trans Ledger.keys_sorted_perm
  rw [h.countedOnce.flexible, ← (hperm.map _).sum_eq, ← Ledger.map_getD_keys 0]
  refine congrArg List.sum (List.map_congr_left fun key hkey => ?_)
  obtain ⟨x, hx⟩ := Ledger.mem_keys_iff.mp hkey
  rw [h.categories_eq, Ledger.getD_eq hx,
    Ledger.getD_eq (Ledger.get?_merge_right (mandatory_not_mem h.keys_flexible) hx)]

/-! ## Changes of income -/

/-- Mandatory expenses get their minimums. -/
theorem Run.summary_mandatory (h : a.Run b s r proposal start) :
    (r.summary b).mandatory = (b.mandatory.values.map (·.minimum)).sum := by
  obtain ⟨flexible, _, hentries, _⟩ := h.exists_entries_categories
  rw [h.countedOnce.mandatory, Ledger.keys, Ledger.values, List.map_map, List.map_map]
  refine congrArg List.sum (List.map_congr_left fun e he => ?_)
  have hmem : (e.1, e.2.minimum) ∈ r.categories.entries := by
    rw [hentries]
    refine List.mem_append_left _ (List.mem_map.mpr ⟨e, ?_, rfl⟩)
    exact Ledger.mem_entries_sorted.mpr he
  exact Ledger.getD_eq (Ledger.get?_of_mem hmem)

/-- What a strategy adds to a payment is extra, so what is paid without the extra payments is
settled by the debts alone. -/
theorem Run.total_sub_debtExtra (h : a.Run b s r proposal start) :
    (r.summary b).debts - r.debtExtra =
      (b.debts.values.map fun d => (duePayment d).total - (duePayment d).extra).sum := by
  have hdebts : (r.summary b).debts = (r.debts.values.map (·.total)).sum := total_eq_sum _
  have hextra : r.debtExtra = (r.debts.values.map (·.extra)).sum := total_eq_sum _
  -- An extra payment is added to the total and to the extra alike.
  have hpayment (key : String) (d : Debt Rat) :
      ((proposal.debtExtra.get? key).elim (duePayment d) fun x => { duePayment d with
          extra := (duePayment d).extra + x
          total := (duePayment d).total + x }).total -
        ((proposal.debtExtra.get? key).elim (duePayment d) fun x => { duePayment d with
          extra := (duePayment d).extra + x
          total := (duePayment d).total + x }).extra =
      (duePayment d).total - (duePayment d).extra := by
    cases proposal.debtExtra.get? key with
    | none => rfl
    | some x => exact add_sub_add_right_eq_sub _ _ _
  have hall : (r.debts.map fun _ p => p.total - p.extra) =
      b.debts.sorted.map fun _ d => (duePayment d).total - (duePayment d).extra := by
    rw [h.debts_eq, payments_eq, Ledger.map_map]
    exact Ledger.map_congr fun key d _ => hpayment key d
  calc (r.summary b).debts - r.debtExtra
      = (r.debts.values.map fun p => p.total - p.extra).sum := by
        rw [hdebts, hextra, sub_eq_iff_eq_add, ← List.sum_map_add]
        simp only [sub_add_cancel]
    _ = (b.debts.values.map fun d => (duePayment d).total - (duePayment d).extra).sum := by
        rw [← Ledger.values_map_values, hall, Ledger.sum_values_map_sorted,
          Ledger.values_map_values]

/-- What moves between the allocations of two budgets with the same expenses and debts is what
their incomes differ by. -/
theorem Run.shift_balance {proposal' : Proposal Rat} {start' : Pools Rat}
    (h : a.Run b s r proposal start) (h' : a.Run c s q proposal' start')
    (hmandatory : c.mandatory = b.mandatory) (hdebts : c.debts = b.debts) (change : Rat) :
    (Shift.between b c r q change).goals + (Shift.between b c r q change).debtExtra +
        (Shift.between b c r q change).flexible + (Shift.between b c r q change).surplus =
      c.income - b.income := by
  have hsame : (q.summary c).mandatory = (r.summary b).mandatory := by
    rw [h.summary_mandatory, h'.summary_mandatory, hmandatory]
  have hdue : (q.summary c).debts - q.debtExtra = (r.summary b).debts - r.debtExtra := by
    rw [h.total_sub_debtExtra, h'.total_sub_debtExtra, hdebts]
  have hbefore : (r.summary b).surplus = b.income - ((r.summary b).mandatory +
    (r.summary b).flexible + (r.summary b).debts + (r.summary b).goals) := rfl
  have hafter : (q.summary c).surplus = c.income - ((q.summary c).mandatory +
    (q.summary c).flexible + (q.summary c).debts + (q.summary c).goals) := rfl
  simp only [Shift.between]
  linarith

/-- The impacts in a report, for changes of income and of priority weights. -/
theorem sensitivity_eq_ok {changes rates : List Rat} {report : Sensitivity Rat}
    (h : a.sensitivity b s changes rates = .ok report) :
    ∃ before, a.solve b s = .ok before ∧
      changes.mapM (a.incomeImpact b s before) = .ok report.income ∧
      a.weightImpacts b s before = .ok report.weights := by
  unfold sensitivity at h
  cases hshort : b.shortfall? with
  | some deficit =>
    rw [hshort] at h
    cases h
  | none =>
    rw [hshort] at h
    obtain ⟨before, hbefore, h⟩ := bind_eq_ok.mp h
    obtain ⟨income, hincome, h⟩ := bind_eq_ok.mp h
    obtain ⟨weights, hweights, h⟩ := bind_eq_ok.mp h
    rw [← pure_eq_ok.mp h]
    exact ⟨before, hbefore, hincome, hweights⟩

/-- An impact that is feasible compares the allocation with one for the new income. -/
theorem incomeImpact_balance {change : Rat} {i : IncomeImpact Rat} {shift : Shift Rat}
    (hsolve : a.solve b s = .ok r) (hi : a.incomeImpact b s r change = .ok i)
    (hshift : i.effect.shift? = some shift) :
    shift.goals + shift.debtExtra + shift.flexible + shift.surplus = i.newIncome - b.income := by
  obtain ⟨changed, hchanged, hi⟩ := bind_eq_ok.mp hi
  have hincome : ¬b.income * (1 + change) < 0 := by
    intro hneg
    rw [b.withIncome_of_neg hneg] at hchanged
    cases hchanged
  have hearning := (b.withIncome_eq (not_lt.mp hincome)).symm.trans hchanged
  cases hshort : changed.shortfall? with
  | some deficit =>
    rw [hshort] at hi
    cases hi
    cases hshift
  | none =>
    rw [hshort] at hi
    obtain ⟨after, hafter, hi⟩ := bind_eq_ok.mp hi
    cases hi
    cases hshift
    cases hearning
    obtain ⟨_, _, hrun⟩ := solve_eq_ok hsolve
    obtain ⟨_, _, hrun'⟩ := solve_eq_ok hafter
    exact hrun.shift_balance hrun' rfl rfl change

/-- Reviews add up: the summary of an allocation has its sum and its surplus and counts every
amount once, and for every feasible change of income what goals, extra debt payments, flexible
spending and the surplus gain is the change. For all strategies, units of rounding and answers of
backends. -/
theorem review_adds_up (a : Allocator Rat) (b : Budget Rat) (s : Scenario Rat) :
    (∀ r, a.solve b s = .ok r →
      (r.summary b).totalAllocated = r.allocated ∧ (r.summary b).surplus = r.surplus ∧
        r.CountedOnce b) ∧
    ∀ changes rates report, a.sensitivity b s changes rates = .ok report →
      ∀ i ∈ report.income, ∀ shift, i.effect.shift? = some shift →
        shift.goals + shift.debtExtra + shift.flexible + shift.surplus =
          i.newIncome - b.income := by
  constructor
  · intro r hr
    obtain ⟨_, _, hrun⟩ := solve_eq_ok hr
    exact ⟨hrun.summary_totalAllocated, hrun.summary_surplus, hrun.countedOnce⟩
  · intro changes rates report hreport i hi shift hshift
    obtain ⟨before, hbefore, hincome, _⟩ := sensitivity_eq_ok hreport
    obtain ⟨change, _, himpact⟩ := exists_of_mem_mapM hincome hi
    exact incomeImpact_balance hbefore himpact hshift

/-- A household whose income falls by a tenth. -/
theorem review_adds_up_household :
    (∃ r, (bySevens .hybrid).solve household halfway = .ok r ∧
      (r.summary household).totalAllocated = r.allocated ∧
      (r.summary household).surplus = r.surplus ∧ r.CountedOnce household) ∧
    ∃ report, (bySevens .hybrid).sensitivity household halfway [-0.1] [] = .ok report ∧
      ∃ i ∈ report.income, ∃ shift, i.effect.shift? = some shift ∧ i.newIncome = 630 ∧
        shift.goals + shift.debtExtra + shift.flexible + shift.surplus = -70 := by
  obtain ⟨hsummary, hshift⟩ := review_adds_up (bySevens .hybrid) household halfway
  refine ⟨?_, ?_⟩
  · obtain ⟨r, hr⟩ := exists_of_isOk
      (x := (bySevens .hybrid).solve household halfway) (by decide +kernel)
    exact ⟨r, hr, hsummary r hr⟩
  · obtain ⟨report, hreport, hreads⟩ := exists_of_toOption_map
      (x := (bySevens .hybrid).sensitivity household halfway [-0.1] [])
      (f := fun report => report.income.map fun i => (i.newIncome, i.isFeasible))
      (y := [(630, true)]) (by cbv)
    obtain ⟨i, hi, hread⟩ : ∃ i ∈ report.income, (i.newIncome, i.isFeasible) = (630, true) := by
      rw [← List.mem_map, hreads]
      exact List.mem_singleton_self _
    obtain ⟨shift, hsome⟩ := Option.isSome_iff_exists.mp (congrArg Prod.snd hread)
    have hincome : i.newIncome = 630 := congrArg Prod.fst hread
    have hbalance := hshift _ _ report hreport i hi shift hsome
    rw [hincome] at hbalance
    refine ⟨report, hreport, i, hi, shift, hsome, hincome, hbalance.trans ?_⟩
    norm_num [household]

end Allocator

end GoalBudget
