import GoalBudget.Proofs.Allocation.Achieved
import GoalBudget.Proofs.Deviation.Monotone
import GoalBudget.Proofs.Deviation.Ranks

/-!
# Strict order without rounding

Where amounts are not rounded, the passes start from just what strict order has given, its `pools`
(`Run.exists_tiers`): these amounts are within their bounds, so bringing them back within bounds
changes nothing. Goals and flexible categories together have what strict order has spent. So what is
missing from the income at the start is what strict order has left, but for the tolerance by which
the flexible minimums may exceed the income (`residual_pools_le`, `left_le_residual_pools`).

This is where a statement about allocations becomes one about serving goals. `TiersFor` says that a
program comes from the budget that is left to the strategy; its variables are the goals that are not
complete and the flexible categories, so looking up an id in the pools is reading an amount at a
position (`getD_values`).

Where strict order has spent everything the passes leave the pools alone
(`normalize_pools_of_spent`).
-/

namespace GoalBudget

/-! ## Amounts that are not rounded -/

/-- Without a unit an amount is not rounded. -/
theorem roundToUnit_of_unrounded {unit : Option Rat} (hunit : ∀ u ∈ unit, u = 0) (x : Rat) :
    roundToUnit x unit = .ok x := by
  cases unit with
  | none => rfl
  | some u =>
    rw [hunit u rfl]
    rfl

/-- An amount within the bounds of a category is left alone. -/
theorem Category.clamp_of_admits {c : Category Rat} {x : Rat} (h : c.Admits x) :
    c.clamp x = x := by
  rw [clamp, greatest_eq_max, max_eq_left h.1]
  split
  next hmax => rw [least_eq_min, min_eq_left (h.2 hmax)]
  next => rfl

namespace Allocator

variable {a : Allocator Rat} {b : Budget Rat} {values : Ledger Rat}

/-- Entries changed by steps that all succeed. -/
theorem mapEntries_eq_map {β : Type} {f : String → β → Except (Fault Rat) Rat}
    {g : String → β → Rat} {l : Ledger β}
    (h : ∀ key x, l.get? key = some x → f key x = .ok (g key x)) :
    mapEntries f l = .ok (l.map g) := by
  have hentries : (l.entries.mapM fun e => do return (e.1, ← f e.1 e.2)) =
      .ok (l.map g).entries :=
    mapM_eq_map_of_mem fun e he => by rw [h e.1 e.2 (Ledger.get?_of_mem he)]; rfl
  rw [mapEntries, hentries]
  exact congrArg Except.ok (Ledger.ext_entries (Ledger.entries_ofList (l.map g).distinct))

section
variable (hunit : ∀ u ∈ a.roundingUnit, u = 0)
include hunit

/-- Without a unit the flexible amounts are those proposed. -/
theorem flexibleAmounts_of_unrounded
    (h : ∀ key c, b.flexible.get? key = some c → c.Admits (values.getD key 0)) :
    a.flexibleAmounts b values = .ok (b.flexible.sorted.map fun key _ => values.getD key 0) := by
  refine mapEntries_eq_map fun key c hc => ?_
  rw [roundToUnit_of_unrounded hunit]
  exact congrArg Except.ok
    (Category.clamp_of_admits (h key c (Ledger.get?_sorted.symm.trans hc)))

theorem goalAmounts_of_unrounded
    (h : ∀ key g, b.goals.get? key = some g → g.Admits (values.getD key 0)) :
    a.goalAmounts b values = .ok (b.goals.sorted.map fun key _ => values.getD key 0) := by
  refine mapEntries_eq_map fun key g hg => ?_
  rw [roundToUnit_of_unrounded hunit]
  refine congrArg Except.ok ((least_eq_min _ _).trans (min_eq_left ?_))
  exact (h key g (Ledger.get?_sorted.symm.trans hg)).2

/-- A unit of zero is as good as none. -/
theorem solve_of_unrounded (b : Budget Rat) (s : Scenario Rat) :
    a.solve b s = { a with roundingUnit := none }.solve b s := by
  have hnone (x : Rat) : roundToUnit x a.roundingUnit = roundToUnit x none :=
    roundToUnit_of_unrounded hunit x
  simp only [solve, flexibleAmounts, goalAmounts, hnone]
  rfl

end

end Allocator

/-! ## What strict order gives -/

namespace DeviationProgram

variable {b : Budget Rat} {s : Scenario Rat} {p : DeviationProgram Rat}

/-- What strict order gives to the goals and the flexible categories of a budget. -/
def pools (p : DeviationProgram Rat) (b : Budget Rat) : Pools Rat where
  flexible := b.flexible.sorted.map fun key _ => (p.valuesById p.served.amounts).getD key 0
  goals := b.goals.sorted.map fun key _ => (p.valuesById p.served.amounts).getD key 0

/-- A program of strict order for what a budget asks for, with what the commitments leave of the
income. -/
structure TiersFor (b : Budget Rat) (s : Scenario Rat) (p : DeviationProgram Rat) : Prop where
  aims : p.AimsAt (wishes b s)
  ranked : Ranked b p.goals
  income : p.income = b.income - b.committed
  /-- The flexible minimums fit into the income, but for the tolerance. -/
  checked : checkMinimums p.vars p.income = .ok ()

namespace TiersFor

variable (h : TiersFor b s p)
include h

theorem nodup_ids : (p.vars.map (·.id)).Nodup := by
  rw [h.aims.vars, List.map_map]
  exact nodup_ids_wishes b s

theorem length_served : p.served.amounts.length = p.vars.length := by
  rw [h.aims.length_served, h.aims.vars, List.length_map]

theorem last_eq_served : p.last = p.served :=
  serveTiers_eq_served fun _ hg => by
    obtain ⟨_, _, _, _, hside⟩ := h.aims.exists_wish hg
    exact hside

/-- What is given stays within bounds and spends no more than there is. -/
theorem sound_served : p.served.Sound p.vars 0 (max p.income (sumOfMinimums p.vars)) := by
  rw [← h.last_eq_served]
  exact sound_runPreemptive (runPreemptive_of_check h.checked)

theorem getD_values {i : Nat} {w : Wish} (hw : (wishes b s)[i]? = some w) :
    (p.valuesById p.served.amounts).getD w.on.id 0 = p.served.amount i :=
  Ledger.getD_eq
    (GoalProgram.get?_valuesById h.nodup_ids h.length_served (h.aims.getElem?_vars hw))

/-- What is given is within the bounds of goals and flexible categories. -/
theorem admits_values :
    (∀ key g, b.goals.get? key = some g →
      g.Admits ((p.valuesById p.served.amounts).getD key 0)) ∧
    ∀ key c, b.flexible.get? key = some c →
      c.Admits ((p.valuesById p.served.amounts).getD key 0) := by
  obtain ⟨r, hr, hvalues⟩ := exists_summarize h.length_served .optimal p.goals.length
  have hserves := h.aims.serves h.sound_served hr
  rw [← hvalues]
  exact ⟨hserves.goals_admit, hserves.flexible_admit⟩

/-- The pools are within the bounds of the budget. -/
theorem within_pools : (p.pools b).Within b := by
  obtain ⟨hgoals, hflexible⟩ := h.admits_values
  refine ⟨Ledger.keys_map .., Ledger.keys_map .., fun key x g hx hg => ?_, fun key x c hx hc => ?_⟩
  · rw [pools, Ledger.get?_map, Ledger.get?_sorted, hg, Option.map_some, Option.some_inj] at hx
    exact hx ▸ hgoals key g hg
  · rw [pools, Ledger.get?_map, Ledger.get?_sorted, hc, Option.map_some, Option.some_inj] at hx
    exact hx ▸ hflexible key c hc

theorem sum_pools :
    (p.pools b).flexible.values.sum + (p.pools b).goals.values.sum = p.served.amounts.sum := by
  -- Every value of the program belongs to a goal or to a flexible category.
  have hsubset : (p.valuesById p.served.amounts).keys ⊆ b.goals.keys ++ b.flexible.keys := by
    rw [GoalProgram.keys_valuesById h.nodup_ids h.length_served, h.aims.vars, List.map_map]
    intro id hid
    obtain ⟨w, hw, rfl⟩ := List.mem_map.mp hid
    rcases List.mem_append.mp hw with hw | hw
    · obtain ⟨key, g, hg, _, rfl⟩ := mem_goalWishes.mp hw
      exact List.mem_append_left _ (Ledger.mem_keys_of_get? hg)
    · obtain ⟨key, c, hc, rfl⟩ := mem_flexibleWishes.mp hw
      exact List.mem_append_right _ (Ledger.mem_keys_of_get? hc)
  have hread {β : Type} (l : Ledger β) (values : Ledger Rat) :
      (l.sorted.map fun key _ => values.getD key 0).values.sum =
        (l.keys.map (values.getD · 0)).sum := by
    rw [Ledger.sum_values_map_sorted, Ledger.values_map, Ledger.keys, List.map_map]
    rfl
  have hall := Ledger.sum_getD_eq b.nodup_goals_flexible hsubset
  rw [GoalProgram.values_valuesById h.nodup_ids h.length_served, List.map_append,
    List.sum_append] at hall
  rw [pools, hread, hread, add_comm]
  exact hall

/-- No more is missing at the start of the passes than strict order has left. -/
theorem residual_pools_le : residual b.income b.committed (p.pools b) ≤ p.served.left := by
  have hbalance := h.sound_served.balance
  have hmoney := le_max_left p.income (sumOfMinimums p.vars)
  rw [residual_eq, h.sum_pools, ← h.income]
  linarith

/-- What strict order has left is missing at the start of the passes, but for the tolerance. -/
theorem left_le_residual_pools :
    p.served.left - normalizationTolerance ≤ residual b.income b.committed (p.pools b) := by
  have hbalance := h.sound_served.balance
  have hmoney := max_income_le_of_checkMinimums h.checked
  have htolerance : (deviationTolerance : Rat) = normalizationTolerance := rfl
  rw [residual_eq, h.sum_pools, ← h.income]
  linarith

theorem not_over_pools :
    -normalizationTolerance ≤ residual b.income b.committed (p.pools b) := by
  have := h.left_le_residual_pools
  have := h.sound_served.left_nonneg
  linarith

/-- Where strict order has nothing left, the passes have nothing to do. -/
theorem normalize_pools_of_spent (hspent : p.served.left ≤ 0) (passes : Nat) :
    normalize b s b.committed passes (p.pools b) = p.pools b := by
  refine normalize_of_met passes (abs_le.mpr ⟨h.not_over_pools, ?_⟩)
  exact h.residual_pools_le.trans (hspent.trans normalizationTolerance_nonneg)

end TiersFor

end DeviationProgram

/-! ## Runs -/

/-- Where amounts are not rounded, the passes start from what strict order gives. -/
theorem Allocator.Run.exists_tiers {a : Allocator Rat} {b : Budget Rat} {s : Scenario Rat}
    {r : Allocation Rat} {proposal : Proposal Rat} {start : Pools Rat}
    (h : a.Run b s r proposal start) (hstrategy : a.strategy = .preemptive)
    (hunit : ∀ u ∈ a.roundingUnit, u = 0) : ∃ p, DeviationProgram.TiersFor b s p ∧
      start = p.pools b ∧ settledFirst b proposal.debtExtra = b.committed := by
  have hproposed := h.proposed
  unfold propose at hproposed
  rw [hstrategy] at hproposed
  obtain ⟨q, hq, hproposed⟩ := bind_eq_ok.mp hproposed
  obtain ⟨p, hp, hproposed⟩ := bind_eq_ok.mp hproposed
  obtain ⟨result, hresult, hproposed⟩ := bind_eq_ok.mp hproposed
  cases hproposed
  -- The program is drafted from the reduced budget: no fixed costs and no debts, the same goals and
  -- categories.
  obtain ⟨hincome, hmandatory, hdebts, hflexible, hgoals⟩ := reduced_spec hq
  have hranked : DeviationProgram.Ranked b p.goals := by
    have hof := DeviationProgram.ranked_tiersOfBudget hmandatory hdebts hp
    unfold DeviationProgram.Ranked Budget.rankOf at hof ⊢
    rwa [hgoals] at hof
  have haims := DeviationProgram.aimsAt_tiersOfBudget hmandatory hdebts hp
  rw [DeviationProgram.wishes_congr hgoals hflexible] at haims
  have htiers : DeviationProgram.TiersFor b s p :=
    { aims := haims
      ranked := hranked
      income := ((DeviationProgram.adds_tiersOfBudget hmandatory hdebts hp).income.trans
        hincome).trans (Allocator.surplus_eq h.no_shortfall)
      checked := DeviationProgram.checkMinimums_of_solvePreemptive hresult }
  refine ⟨p, htiers, ?_, ?_⟩
  · obtain ⟨_, hvalues, _⟩ := DeviationProgram.solvePreemptive_spec hresult
    rw [htiers.last_eq_served] at hvalues
    obtain ⟨hgoals, hflexible⟩ := htiers.admits_values
    rw [← hvalues] at hgoals hflexible
    -- Without rounding the pools start at the values of the program.
    have hflexibleStart :=
      h.flexible_start.symm.trans (flexibleAmounts_of_unrounded hunit hflexible)
    have hgoalsStart := h.goals_start.symm.trans (goalAmounts_of_unrounded hunit hgoals)
    rw [DeviationProgram.pools, ← hvalues]
    exact congrArg₂ Pools.mk (Except.ok.inj hflexibleStart) (Except.ok.inj hgoalsStart)
  · rw [settledFirst_eq (fun _ hkey => absurd hkey List.not_mem_nil)]
    exact add_zero _

end GoalBudget
