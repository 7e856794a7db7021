import GoalBudget.Proofs.Allocation.Passes
import GoalBudget.Proofs.Allocation.Proposal
import GoalBudget.Proofs.Allocation.Start
import GoalBudget.Proofs.Budget.Ids

/-!
# What an allocation consists of

`Allocator.solve_eq_ok` takes a successful run of the allocator apart, once and for all: what the
strategy proposed, the pools that the passes start from, and how the allocation is put together from
the pools that they end with. `Allocator.Run` lists these facts as fields, and later modules start
from it; the definition of `Allocator.solve` is not opened again to say something about an
allocation.

A run says of its parts what does not depend on the strategy: the pools at the start and at the end
are within the bounds of the budget (`Run.within_start`, `Run.within_end`), and the passes have
settled it (`Run.settled`). The money that the passes do not move is what is paid to mandatory
expenses and debts (`settledFirst`).
-/

namespace GoalBudget

/-- What is spoken for before the passes: mandatory minimums and the payments to debts. -/
def settledFirst (b : Budget Rat) (extra : Ledger Rat) : Rat :=
  (b.mandatory.values.map (·.minimum)).sum +
    ((Allocator.payments b extra).values.map (·.total)).sum

/-- A run of the allocator: its parts, and the allocation as made of them. -/
structure Allocator.Run (a : Allocator Rat) (b : Budget Rat) (s : Scenario Rat)
    (r : Allocation Rat) (proposal : Proposal Rat) (start : Pools Rat) : Prop where
  /-- The commitments fit into the income. -/
  no_shortfall : b.shortfall? = none
  /-- The strategy makes its proposal. -/
  proposed : a.propose b s = .ok proposal
  /-- The flexible amounts are the proposed ones, rounded and within bounds. -/
  flexible_start : a.flexibleAmounts b proposal.values = .ok start.flexible
  /-- The contributions to goals are the proposed ones, rounded and within bounds. -/
  goals_start : a.goalAmounts b proposal.values = .ok start.goals
  /-- Categories get their minimums or what the passes leave them. -/
  categories_eq : r.categories = (b.mandatory.sorted.map fun _ c => c.minimum).merge
    (normalize b s (settledFirst b proposal.debtExtra) maxPasses start).flexible
  /-- Goals get what the passes leave them. -/
  goals_eq : r.goals = (normalize b s (settledFirst b proposal.debtExtra) maxPasses start).goals
  /-- Debts get what is due and what the strategy adds. -/
  debts_eq : r.debts = payments b proposal.debtExtra
  /-- All of it is allocated. -/
  allocated_eq : r.allocated = settledFirst b proposal.debtExtra +
    (normalize b s (settledFirst b proposal.debtExtra) maxPasses start).flexible.values.sum +
    (normalize b s (settledFirst b proposal.debtExtra) maxPasses start).goals.values.sum
  /-- The rest of the income is the surplus. -/
  surplus_eq : r.surplus = b.income - r.allocated

namespace Allocator

variable {a : Allocator Rat} {b : Budget Rat} {s : Scenario Rat} {r : Allocation Rat}
  {proposal : Proposal Rat} {start : Pools Rat}

/-- The check changes nothing in an allocation. -/
theorem check_eq_ok {r' : Allocation Rat} (h : r'.check = .ok r) : r = r' := by
  unfold Allocation.check at h
  split at h
  next => cases h
  next =>
    split at h
    next => cases h
    next =>
      cases h
      rfl

/-- Every run that succeeds has these parts. -/
theorem solve_eq_ok (h : a.solve b s = .ok r) : ∃ proposal start, a.Run b s r proposal start := by
  unfold solve at h
  cases hshortfall : b.shortfall? with
  | some deficit =>
    rw [hshortfall] at h
    cases h
  | none =>
    rw [hshortfall] at h
    obtain ⟨proposal, hproposal, h⟩ := bind_eq_ok.mp h
    obtain ⟨flexible, hflexible, h⟩ := bind_eq_ok.mp h
    obtain ⟨goals, hgoals, h⟩ := bind_eq_ok.mp h
    have hr := check_eq_ok h
    have hcommitted : total (b.mandatory.sorted.map fun _ c => c.minimum).values +
        total ((payments b proposal.debtExtra).values.map (·.total)) =
          settledFirst b proposal.debtExtra := by
      rw [total_eq_sum, total_eq_sum, Ledger.sum_values_map_sorted, Ledger.values_map_values]
      rfl
    simp only [hcommitted] at hr
    refine ⟨proposal, ⟨flexible, goals⟩, hshortfall, hproposal, hflexible, hgoals, ?_, ?_, ?_, ?_,
      ?_⟩
    · rw [hr]
    · rw [hr]
    · rw [hr]
    · rw [hr]
      simp only [total_eq_sum]
    · rw [hr]

/-- The passes start from amounts within their bounds. -/
theorem Run.within_start (h : a.Run b s r proposal start) (hlp : a.HasSoundLp)
    (hunit : ∀ u ∈ a.roundingUnit, 0 < u) : start.Within b := by
  have hfits := propose_fits hlp h.proposed
  exact GoalBudget.within_start hunit (fun key _ => hfits.getD_nonneg key) h.flexible_start
    h.goals_start

/-- The passes end with amounts within their bounds. -/
theorem Run.within_end (h : a.Run b s r proposal start) (hlp : a.HasSoundLp)
    (hunit : ∀ u ∈ a.roundingUnit, 0 < u) :
    (normalize b s (settledFirst b proposal.debtExtra) maxPasses start).Within b :=
  within_normalize _ _ (h.within_start hlp hunit)

/-- What is settled first is what is committed, and the extra payments. -/
theorem settledFirst_eq {extra : Ledger Rat} (h : ∀ key ∈ extra.keys, key ∈ b.debts.keys) :
    settledFirst b extra = b.committed + extra.values.sum := by
  rw [settledFirst, sum_payments h, Budget.committed, total_eq_sum, total_eq_sum, add_assoc]

theorem keys_debtExtra {key : String} (hfits : proposal.Fits b)
    (h : key ∈ proposal.debtExtra.keys) : key ∈ b.debts.keys := by
  obtain ⟨x, hx⟩ := Ledger.mem_keys_iff.mp h
  obtain ⟨d, hd, _⟩ := hfits.debtExtra key x hx
  exact Ledger.mem_keys_of_get? hd

/-- Where the shares make up no more than the whole and the passes suffice, they settle the
income. -/
theorem Run.settled (h : a.Run b s r proposal start) (hlp : a.HasSoundLp)
    (hunit : ∀ u ∈ a.roundingUnit, 0 < u) (hshares : s.shares.SumAtMostOne)
    (hpasses : b.goals.size + 2 * b.flexible.size ≤ maxPasses) :
    Settled b (settledFirst b proposal.debtExtra)
      (normalize b s (settledFirst b proposal.debtExtra) maxPasses start) := by
  have hfits := propose_fits hlp h.proposed
  have hroom := committed_le hlp hshares h.no_shortfall h.proposed
  refine settled_normalize (h.within_start hlp hunit) ?_ hpasses (by decide)
  rw [settledFirst_eq fun key hkey => keys_debtExtra hfits hkey]
  exact hroom

end Allocator

/-- No mandatory expense has the id of an amount for a flexible category. -/
theorem mandatory_not_mem {b : Budget Rat} {flexible : Ledger Rat}
    (h : flexible.keys = b.flexible.sorted.keys) :
    ∀ id ∈ (b.mandatory.sorted.map fun _ c => c.minimum).keys, id ∉ flexible.keys := by
  intro id hid
  rw [Ledger.keys_map, Ledger.keys_sorted_perm.mem_iff] at hid
  rw [h, Ledger.keys_sorted_perm.mem_iff]
  exact b.flexible_not_mem_mandatory id hid

end GoalBudget
