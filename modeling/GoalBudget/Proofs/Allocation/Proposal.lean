import GoalBudget.Allocation.Allocator
import GoalBudget.Proofs.Bucket.Outcome
import GoalBudget.Proofs.Deviation.Linear
import GoalBudget.Proofs.Ladder.Greedy

/-!
# What every strategy proposes

`Proposal.Fits` is what the allocator needs to know of a proposal, and all five strategies have it:
nothing negative is proposed, and debts get extra payments only where there is room for them. Only
the hybrid strategy proposes extra payments at all.

Main results: `propose_fits`, and `committed_le`: commitments, extra payments and flexible minimums
fit into the income.

A run of a strategy is taken apart once, into the program that was made and the result that it led
to (`Proposes`), one case per strategy. Nothing is asked of a backend for programs with binary
columns. The solver of linear programs is the simplex method, or a command that keeps to the lower
bounds that were stated (`Allocator.HasSoundLp`).
-/

namespace GoalBudget

/-- If the strategy is the one with a linear program, its solver is one of the two there are: the
simplex method, or a command that keeps to lower bounds. -/
def Allocator.HasSoundLp (a : Allocator Rat) : Prop :=
  a.strategy = .linear → ∃ kind command, KeepsLowerBounds command ∧ a.lp = lpBackend kind command

/-- The shares of the surplus make up no more than the whole. -/
def Shares.SumAtMostOne (s : Shares Rat) : Prop :=
  s.emergencyFund + s.debtExtra + s.goals + s.flexible ≤ 1

/-- What a proposal for a budget keeps to. -/
structure Proposal.Fits (b : Budget Rat) (p : Proposal Rat) : Prop where
  /-- No amount is negative. -/
  values_nonneg : ∀ e ∈ p.values.entries, 0 ≤ e.2
  /-- Only a debt without a forced payment gets something extra, and not more than its balance
  exceeds the minimum payment. -/
  debtExtra : ∀ key x, p.debtExtra.get? key = some x →
    ∃ d, b.debts.get? key = some d ∧ d.isForced = false ∧ 0 ≤ x ∧
      x ≤ d.currentBalance - d.minimumPayment

theorem Proposal.Fits.getD_nonneg {b : Budget Rat} {p : Proposal Rat} (h : p.Fits b)
    (key : String) : 0 ≤ p.values.getD key 0 :=
  Ledger.getD_nonneg fun x hx => h.values_nonneg (key, x) (Ledger.get?_eq_some_iff.mp hx)

namespace Allocator

variable {a : Allocator Rat} {b r : Budget Rat} {s : Scenario Rat} {p : Proposal Rat}

/-! ## The reduced budget -/

/-- The budget left to a strategy has the flexible categories and the goals, and nothing else. -/
theorem reduced_spec (h : reduced b = .ok r) :
    r.income = b.surplus ∧ r.mandatory = ∅ ∧ r.debts = ∅ ∧ r.flexible = b.flexible ∧
      r.goals = b.goals := by
  obtain ⟨_, _, h⟩ := bind_eq_ok.mp h
  dsimp only at h
  split at h
  next => cases h
  next =>
    cases h
    exact ⟨rfl, rfl, rfl, rfl, rfl⟩

/-- Where the commitments are covered the surplus is what they leave. -/
theorem surplus_eq (h : b.shortfall? = none) : b.surplus = b.income - b.committed := by
  unfold Budget.shortfall? at h
  split at h
  next => cases h
  next hle =>
    rw [Budget.surplus, greatest_eq_max]
    exact max_eq_right (sub_nonneg.mpr (not_lt.mp hle))

/-- The flexible minimums that a strategy makes room for in the reduced budget fit into the
surplus of the whole budget. -/
theorem flexibleFloor_le_surplus {γ : Type} [Scores γ] {q : GoalProgram Rat γ}
    (hr : reduced b = .ok r)
    (hadds : GoalProgram.Adds (.ofIncome r.income) q (0 + flexibleFloor r))
    (h : q.vars = [] ∨ checkMinimums q.vars q.income = .ok ()) :
    flexibleFloor b ≤ b.surplus + deviationTolerance := by
  obtain ⟨hincome, _, _, hflexible, _⟩ := reduced_spec hr
  have hle := flexibleFloor_le_of_adds hadds h
  rwa [flexibleFloor, hflexible, hincome] at hle

/-! ## The five strategies -/

/-- What a strategy proposes is the proposal of a result: the hybrid strategy has one for the whole
budget, every other one for its program of the reduced budget. -/
inductive Proposes (a : Allocator Rat) (b : Budget Rat) (s : Scenario Rat) : Proposal Rat → Prop
  | hybrid {result : HybridResult Rat} (hstrategy : a.strategy = .hybrid)
      (hresult : Hybrid.solve b s = .ok result) : Proposes a b s result.proposal
  | fuzzy {r : Budget Rat} {q : FuzzyProgram Rat} {result : FuzzyResult Rat}
      (hstrategy : a.strategy = .fuzzy) (hr : reduced b = .ok r)
      (hq : FuzzyProgram.ofBudget r s = .ok q) (hresult : q.solve a.backends = .ok result) :
      Proposes a b s result.proposal
  | ladder {r : Budget Rat} {q : LadderProgram Rat} {result : LadderResult Rat}
      (hstrategy : a.strategy = .ladder) (hr : reduced b = .ok r)
      (hq : LadderProgram.ofBudget r s = .ok q) (hresult : q.solve a.backends = .ok result) :
      Proposes a b s result.proposal
  | preemptive {r : Budget Rat} {q : DeviationProgram Rat} {result : DeviationResult Rat}
      (hstrategy : a.strategy = .preemptive) (hr : reduced b = .ok r)
      (hq : DeviationProgram.tiersOfBudget r s = .ok q) (hresult : q.solvePreemptive = .ok result) :
      Proposes a b s result.proposal
  | linear {r : Budget Rat} {q : DeviationProgram Rat} {result : DeviationResult Rat}
      (hstrategy : a.strategy = .linear) (hr : reduced b = .ok r)
      (hq : DeviationProgram.penaltiesOfBudget r s = .ok q)
      (hresult : q.solveLinear a.lp = .ok result) : Proposes a b s result.proposal

/-- A proposal comes from the program of its strategy. -/
theorem proposes_of_eq_ok (h : a.propose b s = .ok p) : a.Proposes b s p := by
  unfold propose at h
  split at h
  next hstrategy =>
    obtain ⟨result, hresult, h⟩ := bind_eq_ok.mp h
    cases h
    exact .hybrid hstrategy hresult
  next hstrategy =>
    obtain ⟨r, hr, h⟩ := bind_eq_ok.mp h
    obtain ⟨q, hq, h⟩ := bind_eq_ok.mp h
    obtain ⟨result, hresult, h⟩ := bind_eq_ok.mp h
    cases h
    exact .fuzzy hstrategy hr hq hresult
  next hstrategy =>
    obtain ⟨r, hr, h⟩ := bind_eq_ok.mp h
    obtain ⟨q, hq, h⟩ := bind_eq_ok.mp h
    obtain ⟨result, hresult, h⟩ := bind_eq_ok.mp h
    cases h
    exact .ladder hstrategy hr hq hresult
  next hstrategy =>
    obtain ⟨r, hr, h⟩ := bind_eq_ok.mp h
    obtain ⟨q, hq, h⟩ := bind_eq_ok.mp h
    obtain ⟨result, hresult, h⟩ := bind_eq_ok.mp h
    cases h
    exact .preemptive hstrategy hr hq hresult
  next hstrategy =>
    obtain ⟨r, hr, h⟩ := bind_eq_ok.mp h
    obtain ⟨q, hq, h⟩ := bind_eq_ok.mp h
    obtain ⟨result, hresult, h⟩ := bind_eq_ok.mp h
    cases h
    exact .linear hstrategy hr hq hresult

/-- What the hybrid strategy proposes comes from a run of its three phases. -/
theorem propose_hybrid (hstrategy : a.strategy = .hybrid) (h : a.propose b s = .ok p) :
    ∃ result, Hybrid.solve b s = .ok result ∧ p = result.proposal := by
  cases proposes_of_eq_ok h with
  | hybrid _ hresult => exact ⟨_, hresult, rfl⟩
  | fuzzy hother | ladder hother | preemptive hother | linear hother =>
    cases hother.symm.trans hstrategy

/-- Only the hybrid strategy proposes extra payments. -/
theorem propose_no_extra (hstrategy : a.strategy ≠ .hybrid) (h : a.propose b s = .ok p) :
    p.debtExtra = ∅ := by
  cases proposes_of_eq_ok h with
  | hybrid hhybrid => exact absurd hhybrid hstrategy
  | fuzzy | ladder | preemptive | linear => rfl

/-- What a strategy other than the hybrid one proposes: nothing negative, and only if the flexible
minimums fit into the surplus. -/
theorem propose_spec (hlp : a.HasSoundLp) (hstrategy : a.strategy ≠ .hybrid)
    (h : a.propose b s = .ok p) : (∀ e ∈ p.values.entries, 0 ≤ e.2) ∧
      flexibleFloor b ≤ b.surplus + deviationTolerance := by
  cases proposes_of_eq_ok h with
  | hybrid hhybrid => exact absurd hhybrid hstrategy
  | fuzzy _ hr hq hresult =>
    obtain ⟨_, hmandatory, hdebts, _, _⟩ := reduced_spec hr
    exact ⟨FuzzyProgram.solve_values_nonneg hresult, flexibleFloor_le_surplus hr
      (FuzzyProgram.adds_ofBudget hmandatory hdebts hq)
      (FuzzyProgram.checkMinimums_of_solve hresult)⟩
  | ladder _ hr hq hresult =>
    obtain ⟨_, hmandatory, hdebts, _, _⟩ := reduced_spec hr
    exact ⟨LadderProgram.solve_values_nonneg hresult, flexibleFloor_le_surplus hr
      (LadderProgram.adds_ofBudget hmandatory hdebts hq)
      (LadderProgram.checkMinimums_of_solve hresult)⟩
  | preemptive _ hr hq hresult =>
    obtain ⟨_, hmandatory, hdebts, _, _⟩ := reduced_spec hr
    exact ⟨DeviationProgram.solvePreemptive_values_nonneg hresult,
      flexibleFloor_le_surplus hr (DeviationProgram.adds_tiersOfBudget hmandatory hdebts hq)
        (.inr (DeviationProgram.checkMinimums_of_solvePreemptive hresult))⟩
  | @linear r q result hlinear hr hq hresult =>
    obtain ⟨_, hmandatory, hdebts, _, _⟩ := reduced_spec hr
    have hadds := DeviationProgram.adds_penaltiesOfBudget hmandatory hdebts hq
    have hincome : 0 ≤ q.income := by
      rw [hadds.income]
      exact not_lt.mp r.income_nonneg
    obtain ⟨kind, command, hcommand, hbackend⟩ := hlp hlinear
    rw [hbackend] at hresult
    exact ⟨DeviationProgram.solveLinear_values_nonneg hcommand hincome hresult,
      flexibleFloor_le_surplus hr hadds (DeviationProgram.checkMinimums_of_solveLinear hresult)⟩

/-- An extra payment is proposed for a debt that has no forced payment and leaves room for it. -/
theorem propose_extra (h : a.propose b s = .ok p) {key : String} {x : Rat}
    (hx : p.debtExtra.get? key = some x) : ∃ d, b.debts.get? key = some d ∧
      d.isForced = false ∧ 0 ≤ x ∧ x ≤ d.currentBalance - d.minimumPayment := by
  cases proposes_of_eq_ok h with
  | hybrid _ hresult => exact Hybrid.debtExtra_spec hresult hx
  | fuzzy | ladder | preemptive | linear => cases hx

/-- Every strategy proposes what the allocator can work with. -/
theorem propose_fits (hlp : a.HasSoundLp) (h : a.propose b s = .ok p) : p.Fits b := by
  refine ⟨?_, fun _ _ hx => propose_extra h hx⟩
  by_cases hstrategy : a.strategy = .hybrid
  · obtain ⟨result, hresult, rfl⟩ := propose_hybrid hstrategy h
    exact Hybrid.proposal_values_nonneg hresult
  · exact (propose_spec hlp hstrategy h).1

/-- A share of the surplus is at most the surplus. -/
theorem debtExtra_le_one (h : s.shares.SumAtMostOne) : s.shares.debtExtra ≤ 1 := by
  have h₁ := not_lt.mp s.shares.emergencyFund_nonneg
  have h₂ := not_lt.mp s.shares.goals_nonneg
  have h₃ := not_lt.mp s.shares.flexible_nonneg
  unfold Shares.SumAtMostOne at h
  linarith

/-- Commitments, extra payments and flexible minimums fit into the income. -/
theorem committed_le (hlp : a.HasSoundLp) (hshares : s.shares.SumAtMostOne)
    (hshortfall : b.shortfall? = none) (h : a.propose b s = .ok p) :
    b.committed + p.debtExtra.values.sum + flexibleFloor b ≤ b.income + deviationTolerance := by
  by_cases hstrategy : a.strategy = .hybrid
  · obtain ⟨result, hresult, rfl⟩ := propose_hybrid hstrategy h
    obtain ⟨hphase, _⟩ := Hybrid.solve_spec hresult
    have hextra := Hybrid.sum_debtExtra_le hresult
    have hshare : max 0 (b.income - Hybrid.phase1Total b) * s.shares.debtExtra ≤
        max 0 (b.income - Hybrid.phase1Total b) :=
      mul_le_of_le_one_right (le_max_left _ _) (debtExtra_le_one hshares)
    have hphase1 := Hybrid.phase1Total_eq_committed b
    have htolerance : (0 : Rat) ≤ deviationTolerance := by norm_num [deviationTolerance]
    -- Extra payments come out of what the first phase leaves, and there are none when it leaves
    -- nothing.
    rcases max_choice 0 (b.income - Hybrid.phase1Total b) with hmax | hmax
    · rw [hmax] at hextra hshare
      linarith
    · rw [hmax] at hextra hshare
      linarith
  · have hfloor := (propose_spec hlp hstrategy h).2
    rw [surplus_eq hshortfall] at hfloor
    have hnone : p.debtExtra.values.sum = 0 := by
      rw [propose_no_extra hstrategy h]
      rfl
    linarith

end Allocator

end GoalBudget
