import GoalBudget.Proofs.Bucket.Hybrid
import GoalBudget.Proofs.Strategy.Outcome

/-!
# When the hybrid strategy has a result

Buckets can be made of every budget in every scenario (`exists_buckets`), and spending them cannot
fail. So the only fault is that of the first phase, which has to pay the commitments and the
flexible minimums: `solve_decided`.

The first phase adds up three ledgers of its own. What they come to is the sum of the commitments
and the flexible minimums of the budget (`phase1Total_eq_committed`), although minimums of zero are
left out of the last one; so the check of the strategy is the one that other strategies make on the
budget that is left to them.
-/

namespace GoalBudget.Hybrid

variable {b : Budget Rat} {s : Scenario Rat}

/-- A savings goal has an item or none. -/
theorem exists_goalItem (factor : Rat) (key : String) (g : Goal Rat) :
    ∃ item, goalItem factor key g = .ok item := by
  unfold goalItem
  dsimp only
  split
  next => exact ⟨none, rfl⟩
  next => exact ⟨_, rfl⟩

/-- The items of all savings goals can be made. -/
theorem exists_goalItems (b : Budget Rat) (factor : Rat) (emergency : Bool) :
    ∃ items, goalItems b factor emergency = .ok items := by
  unfold goalItems
  exact exists_bind_of_forall (exists_mapM_eq_ok fun e _ => exists_goalItem factor e.1 e.2)
    fun items => ⟨_, rfl⟩

/-- Buckets can be made of every budget. -/
theorem exists_buckets (b : Budget Rat) (s : Scenario Rat) (surplus : Rat) :
    ∃ bs, buckets b s surplus = .ok bs := by
  unfold buckets
  refine exists_bind_of_forall (exists_goalItems b s.goalFactor true) fun emergency => ?_
  exact exists_bind_of_forall (exists_goalItems b s.goalFactor false) fun goals => ⟨_, rfl⟩

/-- The first phase pays the commitments and the flexible minimums. -/
theorem phase1Total_eq_committed (b : Budget Rat) :
    phase1Total b = b.committed + flexibleFloor b := by
  rw [phase1Total_eq, Budget.committed, total_eq_sum, total_eq_sum, flexibleFloor]

/-- The strategy fails when the flexible minimums do not fit into what the commitments leave of
the income, and never else. -/
theorem solve_decided (b : Budget Rat) (s : Scenario Rat) :
    DecidedBy (checkFloor b (b.income - b.committed)) (solve b s) := by
  have hfloor : b.income - b.committed + deviationTolerance < flexibleFloor b ↔
      b.income + deviationTolerance < phase1Total b := by
    rw [phase1Total_eq_committed]
    constructor
    · intro h
      linarith
    · intro h
      linarith
  unfold solve checkFloor
  dsimp only
  by_cases hlt : b.income + deviationTolerance < phase1Total b
  · have hdeficit : phase1Total b - b.income = flexibleFloor b - (b.income - b.committed) := by
      rw [phase1Total_eq_committed]
      ring
    rw [if_pos hlt, if_pos (hfloor.mpr hlt), hdeficit]
    exact ⟨nofun, fun e h => by cases h; rfl⟩
  · obtain ⟨bs, hbs⟩ := exists_buckets b s (greatest 0 (b.income - phase1Total b))
    rw [if_neg hlt, if_neg (hlt ∘ hfloor.mp)]
    exact ⟨fun _ => exists_bind hbs ⟨_, rfl⟩, nofun⟩

end GoalBudget.Hybrid
