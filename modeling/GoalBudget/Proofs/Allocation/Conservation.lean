import GoalBudget.Proofs.Allocation.Keys

/-!
# The income is conserved

Whatever the strategy, an allocation adds up: the sum it states is the sum of the amounts it lists,
and the rest of the income is its surplus. The sum does not exceed the income by more than the
tolerance of the passes, and falls short of it only when every goal and every flexible category has
all that it can take (`Allocation.IsFull`).

How many passes are needed is bounded by what is open in the budget, one for each goal and two for
each flexible category (`openings_le`). The statement is about budgets in which that is no more than
the hundred that are made.

The household at the end, with an allocator that rounds to sevens, is the instance of this theorem
and of others about whole allocations.
-/

namespace GoalBudget

/-- Every goal has what is missing, and every flexible category its maximum, but for the
tolerance of the passes. -/
def Allocation.IsFull (b : Budget Rat) (r : Allocation Rat) : Prop :=
  (∀ key g, b.goals.get? key = some g →
    ∃ x, r.goals.get? key = some x ∧ |g.remainingAmount - x| ≤ 0.01) ∧
  ∀ key c, b.flexible.get? key = some c →
    0 < c.maximum ∧ ∃ x, r.categories.get? key = some x ∧ |c.maximum - x| ≤ 0.01

namespace Allocator

variable {a : Allocator Rat} {b : Budget Rat} {s : Scenario Rat} {r : Allocation Rat}
  {proposal : Proposal Rat} {start : Pools Rat} {key : String}

/-- Pools that are full make a full allocation. -/
theorem Run.isFull (h : a.Run b s r proposal start)
    (hend : (normalize b s (settledFirst b proposal.debtExtra) maxPasses start).Within b)
    (hfull : (normalize b s (settledFirst b proposal.debtExtra) maxPasses start).Saturated b) :
    r.IsFull b := by
  generalize hpools : normalize b s (settledFirst b proposal.debtExtra) maxPasses start = p
    at hend hfull
  have hgoals := h.goals_eq
  have hcategories := h.categories_eq
  rw [hpools] at hgoals hcategories
  constructor
  · intro key g hg
    have hmem : key ∈ p.goals.keys := by
      rw [hend.goals_keys, Ledger.keys_sorted_perm.mem_iff]
      exact Ledger.mem_keys_of_get? hg
    obtain ⟨x, hx⟩ := Ledger.mem_keys_iff.mp hmem
    have hadmits := hend.goals_admit key x g hx hg
    refine ⟨x, hgoals ▸ hx, ?_⟩
    -- the amount is within bounds, so only one side of the difference counts
    rw [abs_of_nonneg (sub_nonneg.mpr hadmits.2)]
    exact hfull.1 key x g hx hg
  · intro key c hc
    have hmem : key ∈ p.flexible.keys := by
      rw [hend.flexible_keys, Ledger.keys_sorted_perm.mem_iff]
      exact Ledger.mem_keys_of_get? hc
    obtain ⟨x, hx⟩ := Ledger.mem_keys_iff.mp hmem
    obtain ⟨hmax, hle⟩ := hfull.2 key x c hx hc
    have hadmits := hend.flexible_admit key x c hx hc
    refine ⟨hmax, x, ?_, ?_⟩
    · rw [hcategories]
      exact Ledger.get?_merge_right (mandatory_not_mem hend.flexible_keys) hx
    · rw [abs_of_nonneg (sub_nonneg.mpr (hadmits.2 hmax))]
      exact hle

/-- Every allocation adds up, does not exceed the income, and leaves some of it over only when
everything is full. For all strategies and every answer of a backend for programs with binary
columns. -/
theorem solve_conserves_income (hunit : ∀ u ∈ a.roundingUnit, 0 < u)
    (hshares : s.shares.emergencyFund + s.shares.debtExtra + s.shares.goals +
      s.shares.flexible ≤ 1)
    (hpasses : b.goals.size + 2 * b.flexible.size ≤ 100) (hlp : a.HasSoundLp)
    (h : a.solve b s = .ok r) :
    r.allocated = r.categories.values.sum + r.goals.values.sum +
        (r.debts.values.map (·.total)).sum ∧
      r.surplus = b.income - r.allocated ∧
      r.allocated ≤ b.income + 0.01 ∧
      (b.income - 0.01 ≤ r.allocated ∨ r.IsFull b) := by
  obtain ⟨proposal, start, hrun⟩ := solve_eq_ok h
  have hsettled := hrun.settled hlp hunit hshares hpasses
  have hend := hrun.within_end hlp hunit
  -- what the last round leaves open is the surplus
  have hresidual : residual b.income (settledFirst b proposal.debtExtra)
      (normalize b s (settledFirst b proposal.debtExtra) maxPasses start) =
        b.income - r.allocated := by
    rw [residual_eq, hrun.allocated_eq]
    ring
  have hover := hsettled.not_over
  rw [hresidual] at hover
  refine ⟨?_, hrun.surplus_eq, ?_, ?_⟩
  · rw [hrun.allocated_eq_listed]
    ring
  · unfold normalizationTolerance at hover
    linarith
  · rcases hsettled.met_or_full with hmet | hfull
    · left
      rw [hresidual] at hmet
      unfold normalizationTolerance at hmet
      linarith
    · exact .inr (hrun.isFull hend hfull)

/-- A household with one item of each kind. -/
def household : Budget Rat where
  income := 700
  mandatory := ⟨[("rent", ⟨"rent", 300, 0, false, 0, by decide, by decide, by decide⟩)], by decide⟩
  flexible := ⟨[("food", ⟨"food", 50, 200, true, 2, by decide, by decide, by decide⟩)], by decide⟩
  debts := ⟨[("card", ⟨"card", "card", 20, 500, 24, 0, 1, by decide, by decide, by decide,
    by decide⟩)], by decide⟩
  goals := ⟨[("trip", ⟨"trip", "trip", 100, 400, "travel", .high, 5, by decide, by decide,
    by decide⟩)], by decide⟩
  income_nonneg := by decide
  ids_distinct := by decide

/-- A scenario halfway between saving and spending, all of whose surplus is shared out. -/
def halfway : Scenario Rat where
  name := "halfway"
  goalFactor := 1
  spendingLevel := 1 / 2
  shares := ⟨2 / 5, 3 / 10, 1 / 5, 1 / 10, by norm_num, by norm_num, by norm_num, by norm_num,
    by norm_num⟩
  goalFactor_nonneg := by norm_num
  zero_le_spendingLevel := by norm_num
  spendingLevel_le_one := by norm_num

/-- A command that reports a solution it knows. -/
def knowing (solution : List Rat) (_ : SparseProgram Rat) : Option (Outcome Rat) :=
  some ⟨.optimal, solution.map some⟩

/-- An allocator that rounds to sevens. Its command knows the best amounts for the household: the
trip gets its target, food is halfway between its bounds, and nothing is missed. -/
def bySevens (strategy : Strategy) : Allocator Rat where
  strategy := strategy
  roundingUnit := some 7
  backends := fun _ => none
  lp := lpBackend "pulp" (some (knowing [100, 125, 0, 0, 0, 0]))

/-- The solver of this allocator keeps to lower bounds. -/
theorem hasSoundLp_bySevens (strategy : Strategy) : (bySevens strategy).HasSoundLp := by
  intro _
  refine ⟨"pulp", some (knowing [100, 125, 0, 0, 0, 0]), ?_, rfl⟩
  rintro run ⟨⟩ p handed outcome _ hrun _ x hx
  cases hrun
  simp only [List.map_cons, List.map_nil, List.mem_cons, Option.some.injEq, List.not_mem_nil,
    or_false] at hx
  rcases hx with rfl | rfl | rfl | rfl | rfl | rfl <;> norm_num

/-- The household spends what it earns, but for a cent. -/
theorem solve_conserves_income_household : ∃ r,
    (bySevens .linear).solve household halfway = .ok r ∧
      r.allocated = r.categories.values.sum + r.goals.values.sum +
        (r.debts.values.map (·.total)).sum ∧
      r.surplus = household.income - r.allocated ∧
      r.allocated ≤ household.income + 0.01 ∧
      (household.income - 0.01 ≤ r.allocated ∨ r.IsFull household) := by
  have hok : ((bySevens .linear).solve household halfway).isOk = true := by decide +kernel
  cases hsolve : (bySevens .linear).solve household halfway with
  | error fault =>
    rw [hsolve] at hok
    cases hok
  | ok r =>
    refine ⟨r, rfl, solve_conserves_income ?_ ?_ ?_ (hasSoundLp_bySevens .linear) hsolve⟩
    · rintro u ⟨⟩
      norm_num
    · norm_num [halfway]
    · decide

end Allocator

end GoalBudget
