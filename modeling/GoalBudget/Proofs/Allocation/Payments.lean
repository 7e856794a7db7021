import GoalBudget.Proofs.Allocation.Conservation

/-!
# How payments are recorded

Of every payment three things are recorded: all of it, the minimum payment of the debt, and what
goes beyond that. The latter two make up the first unless the household forces a payment below the
minimum. Such a debt is paid what is forced, its minimum payment is recorded all the same, and
nothing goes beyond it.

What is due is recorded in this way (`records_duePayment`), and so it stays with an extra payment,
because no strategy adds to a forced one (`Payment.Records.add`). `Payment.Records` is the
invariant, and `Debt.IsUnderpaid` the one case in which minimum and extra do not add up.

Main result: `solve_records_payments`, for every allocator;
`payment_not_minimum_and_extra_underpaid` is a household in which the case arises.
-/

namespace GoalBudget

/-- The payment forced for a debt is less than its minimum payment. -/
def Debt.IsUnderpaid (d : Debt Rat) : Prop :=
  d.isForced = true ∧ d.fixedPayment < d.minimumPayment

/-- A payment records what a debt gets. -/
structure Payment.Records (payment : Payment Rat) (d : Debt Rat) : Prop where
  minimum_eq : payment.minimum = d.minimumPayment
  extra_nonneg : 0 ≤ payment.extra
  /-- The minimum payment and what goes beyond it are all of the payment. -/
  total_eq : ¬d.IsUnderpaid → payment.total = payment.minimum + payment.extra
  /-- Of a payment forced below the minimum, nothing goes beyond it. -/
  underpaid : d.IsUnderpaid → payment.total = d.fixedPayment ∧ payment.extra = 0

/-- A debt is underpaid if what is due is less than its minimum payment. -/
theorem Debt.isUnderpaid_iff (d : Debt Rat) :
    d.IsUnderpaid ↔ d.scheduledPayment < d.minimumPayment := by
  unfold IsUnderpaid scheduledPayment
  cases d.isForced with
  | true => exact and_iff_right rfl
  | false => exact iff_of_false (fun h => Bool.noConfusion h.1) (lt_irrefl d.minimumPayment)

namespace Payment.Records

variable {payment : Payment Rat} {d : Debt Rat}

/-- More can be paid to a debt without a forced payment. -/
theorem add (h : payment.Records d) (hforced : d.isForced = false) {x : Rat} (hx : 0 ≤ x) :
    Payment.Records { payment with extra := payment.extra + x, total := payment.total + x } d where
  minimum_eq := h.minimum_eq
  extra_nonneg := add_nonneg h.extra_nonneg hx
  total_eq hunder := by
    dsimp only
    rw [h.total_eq hunder, add_assoc]
  underpaid hunder := absurd hunder.1 (by rw [hforced]; exact Bool.false_ne_true)

end Payment.Records

namespace Allocator

variable {a : Allocator Rat} {b : Budget Rat} {s : Scenario Rat} {r : Allocation Rat}
  {key : String}

/-- What is due to a debt is recorded. -/
theorem records_duePayment (d : Debt Rat) : (duePayment d).Records d := by
  have hextra : (duePayment d).extra = max 0 (d.scheduledPayment - d.minimumPayment) :=
    greatest_eq_max _ _
  refine ⟨rfl, hextra ▸ le_max_left _ _, fun hunder => ?_, fun hunder => ⟨if_pos hunder.1, ?_⟩⟩
  · rw [Debt.isUnderpaid_iff, not_lt] at hunder
    rw [hextra, max_eq_right (sub_nonneg.mpr hunder)]
    exact (add_sub_cancel d.minimumPayment d.scheduledPayment).symm
  · rw [Debt.isUnderpaid_iff] at hunder
    rw [hextra, max_eq_left (sub_nonpos.mpr hunder.le)]

/-- The payments record what debts get if nothing is added to a forced payment, and nothing
negative to any. -/
theorem exists_records_payments {extra : Ledger Rat} {payment : Payment Rat}
    (hextra : ∀ x, extra.get? key = some x →
      ∃ d, b.debts.get? key = some d ∧ d.isForced = false ∧ 0 ≤ x)
    (h : (payments b extra).get? key = some payment) :
    ∃ d, b.debts.get? key = some d ∧ payment.Records d := by
  rw [payments_eq, Ledger.get?_map, Ledger.get?_sorted] at h
  obtain ⟨d, hd, rfl⟩ := Option.map_eq_some_iff.mp h
  refine ⟨d, hd, ?_⟩
  cases hx : extra.get? key with
  | none => exact records_duePayment d
  | some x =>
    obtain ⟨d', hd', hforced, hnonneg⟩ := hextra x hx
    cases hd.symm.trans hd'
    exact (records_duePayment d).add hforced hnonneg

/-- Every allocation has one payment for each debt, and records how it comes about. -/
theorem solve_records_payments (h : a.solve b s = .ok r) :
    r.debts.keys = b.debts.sorted.keys ∧
      ∀ key payment, r.debts.get? key = some payment →
        ∃ d, b.debts.get? key = some d ∧ payment.Records d := by
  obtain ⟨proposal, start, hrun⟩ := solve_eq_ok h
  rw [hrun.debts_eq]
  refine ⟨keys_payments b proposal.debtExtra, fun key payment => exists_records_payments ?_⟩
  intro x hx
  obtain ⟨d, hd, hforced, hnonneg, _⟩ := propose_extra hrun.proposed hx
  exact ⟨d, hd, hforced, hnonneg⟩

/-- The household pays 60 to its card on top of the minimum payment. -/
theorem solve_records_payments_household : ∃ r,
    (bySevens .hybrid).solve household halfway = .ok r ∧
      r.debts.keys = household.debts.sorted.keys ∧
      (∀ key payment, r.debts.get? key = some payment →
        ∃ d, household.debts.get? key = some d ∧ payment.Records d) ∧
      (r.debts.get? "card").map (fun p => (p.total, p.minimum, p.extra)) = some (80, 20, 60) := by
  obtain ⟨r, hr, hcard⟩ := exists_of_toOption_map
    (x := (bySevens .hybrid).solve household halfway)
    (f := fun r => (r.debts.get? "card").map fun p => (p.total, p.minimum, p.extra))
    (y := some (80, 20, 60)) (by decide +kernel)
  obtain ⟨hkeys, hrecords⟩ := solve_records_payments hr
  exact ⟨r, hr, hkeys, hrecords, hcard⟩

/-- A budget with a payment forced below the minimum. -/
def underpaid : Budget Rat where
  income := 1000
  mandatory := ∅
  flexible := ∅
  debts := ⟨[("car", ⟨"car", "Car", 100, 0, 0, 50, 0, literal_not_neg, literal_not_neg,
    literal_not_neg, literal_not_neg⟩)], by decide⟩
  goals := ∅
  income_nonneg := literal_not_neg
  ids_distinct := by decide

/-- The car gets 50 of its minimum payment of 100. -/
theorem payment_not_minimum_and_extra_underpaid : ∃ r payment,
    (bySevens .preemptive).solve underpaid halfway = .ok r ∧
      r.debts.get? "car" = some payment ∧
      payment.total = 50 ∧ payment.minimum = 100 ∧ payment.extra = 0 ∧
      payment.total ≠ payment.minimum + payment.extra := by
  obtain ⟨r, hr, hcar⟩ := exists_of_toOption_map
    (x := (bySevens .preemptive).solve underpaid halfway)
    (f := fun r => (r.debts.get? "car").map fun p => (p.total, p.minimum, p.extra))
    (y := some (50, 100, 0)) (by decide +kernel)
  obtain ⟨payment, hpayment, hparts⟩ := Option.map_eq_some_iff.mp hcar
  simp only [Prod.mk.injEq] at hparts
  obtain ⟨htotal, hminimum, hextra⟩ := hparts
  refine ⟨r, payment, hr, hpayment, htotal, hminimum, hextra, ?_⟩
  rw [htotal, hminimum, hextra]
  norm_num

end Allocator

end GoalBudget
