import GoalBudget.Allocation.Allocator
import GoalBudget.Proofs.Allocation.Within
import GoalBudget.Proofs.Fault.Success

/-!
# Amounts before the passes

What a strategy proposes is rounded and brought back within the bounds: `within_start`. Of the
strategy only one thing is needed, that it proposes nothing negative for a goal; a category's amount
is within its bounds whatever was proposed.

The payments to debts are settled at this point. Each debt is paid what is due and what the strategy
adds to it: `total_payments`, `sum_payments`. What is added is entered one id after the other, and
as no id is repeated that is a lookup for every debt (`payments_eq`).

Amounts are changed entry by entry with steps that can fail. `mapEntries_eq_ok` says of a run
without fault that every entry has its own result, and keeps the order.
-/

namespace GoalBudget

variable {a : Allocator Rat} {b : Budget Rat} {p : Pools Rat} {key : String}

/-! ## Rounding -/

/-- Rounding to a positive unit, or not at all, makes nothing negative. -/
theorem roundToUnit_nonneg {amount rounded : Rat} {unit : Option Rat}
    (hunit : ∀ u ∈ unit, 0 < u) (hamount : 0 ≤ amount)
    (h : roundToUnit amount unit = .ok rounded) : 0 ≤ rounded := by
  unfold roundToUnit at h
  cases unit with
  | none =>
    cases h
    exact hamount
  | some u =>
    have hu : 0 < u := hunit u rfl
    have hzero : (u == 0) = false := beq_eq_false_iff_ne.mpr hu.ne'
    simp only [hzero, isUndefined_rat, isInfinite_rat, Bool.false_eq_true, if_false,
      Except.ok.injEq] at h
    rw [← h, floor_eq_floor]
    have hhalf : 0 ≤ amount / u + 0.5 := add_nonneg (div_nonneg hamount hu.le) (by norm_num)
    exact mul_nonneg (Int.cast_nonneg (Int.floor_nonneg.mpr hhalf)) hu.le

/-- An amount moved within the bounds of a category is within them. -/
theorem Category.admits_clamp (c : Category Rat) (x : Rat) : c.Admits (c.clamp x) := by
  unfold Category.clamp Category.Admits
  simp only [greatest_eq_max, least_eq_min]
  split
  next hmax =>
    have hle : c.minimum ≤ c.maximum := not_lt.mp fun hlt => c.minimum_le_maximum ⟨hmax, hlt⟩
    exact ⟨le_min (le_max_right _ _) hle, fun _ => min_le_right _ _⟩
  next hmax => exact ⟨le_max_right _ _, fun h => absurd h hmax⟩

/-! ## Entries changed one by one -/

/-- The ids stay, and every new entry comes from the old one under its id. -/
theorem mapEntries_eq_ok {β : Type} {f : String → β → Except (Fault Rat) Rat} {l : Ledger β}
    {m : Ledger Rat} (h : Allocator.mapEntries f l = .ok m) :
    m.keys = l.keys ∧ ∀ key x y, l.get? key = some x → m.get? key = some y → f key x = .ok y := by
  obtain ⟨entries, hentries, hm⟩ := bind_eq_ok.mp h
  have hstep : ∀ e e' : String × _, (do return (e.1, ← f e.1 e.2) : Except (Fault Rat) _) = .ok e' →
      e'.1 = e.1 ∧ f e.1 e.2 = .ok e'.2 := by
    intro e e' he
    obtain ⟨y, hy, he'⟩ := bind_eq_ok.mp he
    cases he'
    exact ⟨rfl, hy⟩
  have hkeys : entries.map Prod.fst = l.entries.map Prod.fst :=
    map_eq_of_mapM_eq_ok hentries fun e e' he => (hstep e e' he).1
  have hmEntries : m.entries = entries := by
    rw [← pure_eq_ok.mp hm]
    exact Ledger.entries_ofList (hkeys ▸ l.distinct)
  refine ⟨by rw [Ledger.keys, hmEntries, hkeys]; rfl, ?_⟩
  intro key x y hx hy
  have hmem : (key, y) ∈ entries := hmEntries ▸ Ledger.get?_eq_some_iff.mp hy
  obtain ⟨e, he, hfe⟩ := exists_of_mem_mapM hentries hmem
  obtain ⟨hid, hvalue⟩ := hstep e (key, y) hfe
  dsimp only at hid hvalue
  rw [hid, Ledger.get?_of_mem he, Option.some.injEq] at hx
  rw [hid, ← hx]
  exact hvalue

/-! ## The amounts to start from -/

/-- The flexible amounts are within their bounds. -/
theorem flexibleAmounts_eq_ok {values l : Ledger Rat} (h : a.flexibleAmounts b values = .ok l) :
    l.keys = b.flexible.sorted.keys ∧
      ∀ key x c, l.get? key = some x → b.flexible.get? key = some c → c.Admits x := by
  obtain ⟨hkeys, hentries⟩ := mapEntries_eq_ok h
  refine ⟨hkeys, fun key x c hx hc => ?_⟩
  have hstep := hentries key c x (Ledger.get?_sorted.trans hc) hx
  obtain ⟨rounded, _, hclamp⟩ := bind_eq_ok.mp hstep
  rw [← pure_eq_ok.mp hclamp]
  exact c.admits_clamp rounded

/-- The contributions are not negative, and no more than what is missing. -/
theorem goalAmounts_eq_ok {values l : Ledger Rat} (hunit : ∀ u ∈ a.roundingUnit, 0 < u)
    (hvalues : ∀ key ∈ b.goals.keys, 0 ≤ values.getD key 0)
    (h : a.goalAmounts b values = .ok l) :
    l.keys = b.goals.sorted.keys ∧
      ∀ key x g, l.get? key = some x → b.goals.get? key = some g → g.Admits x := by
  obtain ⟨hkeys, hentries⟩ := mapEntries_eq_ok h
  refine ⟨hkeys, fun key x g hx hg => ?_⟩
  have hstep := hentries key g x (Ledger.get?_sorted.trans hg) hx
  obtain ⟨rounded, hrounded, hleast⟩ := bind_eq_ok.mp hstep
  have hnonneg := roundToUnit_nonneg hunit (hvalues key (Ledger.mem_keys_of_get? hg)) hrounded
  rw [← pure_eq_ok.mp hleast, least_eq_min]
  exact ⟨le_min hnonneg (not_lt.mp g.remainingAmount_nonneg), min_le_right _ _⟩

/-- The passes start from amounts within their bounds. -/
theorem within_start {values flexible goals : Ledger Rat} (hunit : ∀ u ∈ a.roundingUnit, 0 < u)
    (hvalues : ∀ key ∈ b.goals.keys, 0 ≤ values.getD key 0)
    (hflexible : a.flexibleAmounts b values = .ok flexible)
    (hgoals : a.goalAmounts b values = .ok goals) : Pools.Within b ⟨flexible, goals⟩ := by
  obtain ⟨hflexibleKeys, hflexibleAdmit⟩ := flexibleAmounts_eq_ok hflexible
  obtain ⟨hgoalKeys, hgoalAdmit⟩ := goalAmounts_eq_ok hunit hvalues hgoals
  exact ⟨hgoalKeys, hflexibleKeys, hgoalAdmit, hflexibleAdmit⟩

/-! ## Payments -/

/-- Each debt is paid what is due, and what is added for its id. -/
theorem payments_eq (b : Budget Rat) (extra : Ledger Rat) :
    Allocator.payments b extra = b.debts.sorted.map fun key d =>
      (extra.get? key).elim (Allocator.duePayment d) fun x =>
        { Allocator.duePayment d with
          extra := (Allocator.duePayment d).extra + x
          total := (Allocator.duePayment d).total + x } := by
  unfold Allocator.payments
  rw [Ledger.foldl_modify (fun _ x (p : Payment Rat) =>
    { p with extra := p.extra + x, total := p.total + x }) _ extra.distinct, Ledger.map_map]
  rfl

theorem keys_payments (b : Budget Rat) (extra : Ledger Rat) :
    (Allocator.payments b extra).keys = b.debts.sorted.keys := by
  rw [payments_eq, Ledger.keys_map]

/-- A debt is paid what is due and what the strategy adds. -/
theorem total_payments {extra : Ledger Rat} {payment : Payment Rat} {d : Debt Rat}
    (hd : b.debts.get? key = some d)
    (h : (Allocator.payments b extra).get? key = some payment) :
    payment.total = d.scheduledPayment + extra.getD key 0 := by
  rw [payments_eq, Ledger.get?_map, Ledger.get?_sorted, hd, Option.map_some,
    Option.some.injEq] at h
  rw [← h, Ledger.getD]
  cases extra.get? key with
  | none => exact (add_zero _).symm
  | some x => rfl

/-- All payments together are what is due and what the strategy adds to debts there are. -/
theorem sum_payments {extra : Ledger Rat} (h : ∀ key ∈ extra.keys, key ∈ b.debts.keys) :
    ((Allocator.payments b extra).values.map (·.total)).sum =
      (b.debts.values.map (·.scheduledPayment)).sum + extra.values.sum := by
  have htotals : (Allocator.payments b extra).map (fun _ p => p.total) =
      extra.entries.foldl (fun l e => l.modify e.1 (· + e.2))
        (b.debts.sorted.map fun _ d => d.scheduledPayment) := by
    rw [payments_eq, Ledger.map_map, Ledger.foldl_modify (fun _ x total => total + x) _
      extra.distinct, Ledger.map_map]
    apply Ledger.map_congr
    intro key d _
    show _ = (extra.get? key).elim d.scheduledPayment fun x => d.scheduledPayment + x
    cases extra.get? key with
    | none => rfl
    | some x => rfl
  have hkeys : ∀ e ∈ extra.entries,
      e.1 ∈ (b.debts.sorted.map fun _ d => d.scheduledPayment).keys := by
    intro e he
    rw [Ledger.keys_map, Ledger.keys_sorted_perm.mem_iff]
    exact h e.1 (List.mem_map_of_mem he)
  have hsum := congrArg (fun l => l.values.sum) htotals
  rw [Ledger.sum_values_foldl_add (fun _ x => x) _ hkeys, Ledger.sum_values_map_sorted] at hsum
  rw [Ledger.values_map_values, Ledger.values_map_values] at hsum
  exact hsum

end GoalBudget
