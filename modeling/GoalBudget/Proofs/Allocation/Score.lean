import GoalBudget.Proofs.Allocation.Conservation
import GoalBudget.Proofs.Bucket.Score

/-!
# The score of an allocation

The score of an allocation is that of the proposal it is made from, and every strategy has a scale
of its own: the mean satisfaction by weight, the part of the rewards that is collected, and where
goals have targets the part of them that is reached. Each is turned into a score from 0 to 100; of a
mean satisfaction above one only one counts, and without any goals or rewards to be had the score is
100 or 0.

The bounds of three strategies are proved where the strategies are, that of goals with targets here
(`DeviationResult.score_between`), and `propose_score_between` brings them together, one case per
strategy. Rounding and passes change no score, so nothing is asked of the unit or of any solver.

Main result: `score_within_scale`.
-/

namespace GoalBudget

/-- Where goals have targets, the score is the part of them that is reached, in percent. -/
theorem DeviationResult.score_between (r : DeviationResult Rat) :
    0 ≤ r.proposal.score ∧ r.proposal.score ≤ 100 := by
  unfold DeviationResult.proposal
  dsimp only
  split
  next => norm_num
  next hsome =>
    have hreached : (0 : Rat) ≤ (r.achieved.length : Rat) := Nat.cast_nonneg _
    have hall : (0 : Rat) < ((r.achieved.length + r.unachieved.length : Nat) : Rat) :=
      Nat.cast_pos.mpr (Nat.pos_of_ne_zero hsome)
    have hle : (r.achieved.length : Rat) ≤
        ((r.achieved.length + r.unachieved.length : Nat) : Rat) :=
      Nat.cast_le.mpr (Nat.le_add_right _ _)
    have hpart := div_le_one_of_le₀ hle hall.le
    rw [mul_div_assoc]
    exact ⟨mul_nonneg (by norm_num) (div_nonneg hreached hall.le), by linarith⟩

namespace Allocator

variable {a : Allocator Rat} {b : Budget Rat} {s : Scenario Rat} {r : Allocation Rat}
  {proposal : Proposal Rat}

/-- Whatever the strategy, what it proposes has a score from 0 to 100. -/
theorem propose_score_between (h : a.propose b s = .ok proposal) :
    0 ≤ proposal.score ∧ proposal.score ≤ 100 := by
  cases proposes_of_eq_ok h with
  | hybrid _ hresult => exact Hybrid.score_between hresult
  | fuzzy _ _ hq hresult => exact FuzzyProgram.score_between hq hresult
  | ladder _ _ hq hresult => exact LadderProgram.score_between hq hresult
  | preemptive | linear => exact DeviationResult.score_between _

/-- An allocation takes over the score of what its strategy proposes. -/
theorem exists_propose_score (h : a.solve b s = .ok r) :
    ∃ proposal, a.propose b s = .ok proposal ∧ r.score = proposal.score := by
  unfold solve at h
  cases hshortfall : b.shortfall? with
  | some deficit =>
    rw [hshortfall] at h
    cases h
  | none =>
    rw [hshortfall] at h
    obtain ⟨proposal, hproposal, h⟩ := bind_eq_ok.mp h
    obtain ⟨_, _, h⟩ := bind_eq_ok.mp h
    obtain ⟨_, _, h⟩ := bind_eq_ok.mp h
    exact ⟨proposal, hproposal, by rw [check_eq_ok h]⟩

/-- Every allocation has a score from 0 to 100, whatever its strategy, the unit of rounding and the
backends are. -/
theorem score_within_scale (h : a.solve b s = .ok r) : 0 ≤ r.score ∧ r.score ≤ 100 := by
  obtain ⟨proposal, hproposal, hscore⟩ := exists_propose_score h
  rw [hscore]
  exact propose_score_between hproposal

/-- The household collects 310 of 450 rewards: 200 in the first phase, 80 for the extra payment to
the card and 30 for the lowest level of the trip. -/
theorem score_within_scale_household : ∃ r,
    (bySevens .hybrid).solve household halfway = .ok r ∧ r.score = 620 / 9 ∧
      0 ≤ r.score ∧ r.score ≤ 100 := by
  obtain ⟨r, hr, hscore⟩ := exists_of_toOption_map
    (x := (bySevens .hybrid).solve household halfway) (f := (·.score)) (y := 620 / 9)
    (by decide +kernel)
  exact ⟨r, hr, hscore, score_within_scale hr⟩

end Allocator

end GoalBudget
