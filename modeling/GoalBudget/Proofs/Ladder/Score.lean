import GoalBudget.Allocation.Proposal
import GoalBudget.Proofs.Fuzzy.Score
import GoalBudget.Proofs.Ladder.Choice
import GoalBudget.Proofs.Ladder.Exhausted
import GoalBudget.Proofs.Ladder.Outcome

/-!
# The score of the strategy with ladders

Whatever the item, its levels ask for more and more and pay more and more (`Climbing`), so that the
order in which they are checked leaves them as they are, and their rewards are those of a rewarding
ladder (`rewarding_ofBudget`). Then the highest level pays most, and what the goals collect is no
more than what they can collect (`collected_le`).

Where nothing can be collected the part is zero by definition, so the score lies between zero and a
hundred for budgets without any item, too.

Main result: `score_between`.
-/

namespace GoalBudget

/-- Levels of which each asks for no less and pays no less than the one before, and none pays
anything negative. -/
structure Climbing (levels : List (Level Rat)) : Prop where
  ne_nil : levels ≠ []
  nonneg : ∀ l ∈ levels, 0 ≤ l.reward
  climbs : levels.IsChain fun l l' => l.value ≤ l'.value ∧ l.reward ≤ l'.reward

namespace Climbing

variable {levels : List (Level Rat)} (h : Climbing levels)
include h

theorem pairwise : levels.Pairwise fun l l' => l.value ≤ l'.value ∧ l.reward ≤ l'.reward := by
  have : IsTrans (Level Rat) fun l l' => l.value ≤ l'.value ∧ l.reward ≤ l'.reward :=
    ⟨fun _ _ _ h h' => ⟨h.1.trans h'.1, h.2.trans h'.2⟩⟩
  exact List.isChain_iff_pairwise.mp h.climbs

theorem rising : levels.Pairwise (·.reward ≤ ·.reward) := h.pairwise.imp fun h => h.2

/-- The check of the levels leaves them as they are. -/
theorem checkLevels (id : String) : LadderGoal.checkLevels id levels = .ok levels :=
  LadderGoal.checkLevels_of_ascending id h.ne_nil (h.pairwise.imp fun h => h.1)

end Climbing

theorem climbing_singleton {l : Level Rat} (h : 0 ≤ l.reward) : Climbing [l] where
  ne_nil := List.cons_ne_nil _ _
  nonneg := by simpa using h
  climbs := .singleton l

/-- Where rewards rise, the last level pays most. -/
theorem le_last_reward {levels : List (Level Rat)} (h : levels.Pairwise (·.reward ≤ ·.reward))
    {l : Level Rat} (hl : l ∈ levels) :
    ∃ top, levels.getLast? = some top ∧ l.reward ≤ top.reward := by
  have hlast := List.getLast?_eq_some_getLast (List.ne_nil_of_mem hl)
  refine ⟨_, hlast, ?_⟩
  obtain ⟨front, hfront⟩ := List.getLast?_eq_some_iff.mp hlast
  generalize levels.getLast _ = top at hfront
  rw [hfront] at h hl
  rcases List.mem_append.mp hl with hl | hl
  · exact (List.pairwise_append.mp h).2.2 l hl top (List.mem_singleton_self top)
  · rw [List.mem_singleton.mp hl]

namespace LadderGoal.Rewarding

variable {g : LadderGoal Rat} (h : g.Rewarding)
include h

/-- No level pays more than the highest. -/
theorem le_topReward {l : Level Rat} (hl : l ∈ g.levels) : l.reward ≤ g.topReward := by
  obtain ⟨top, htop, hle⟩ := le_last_reward h.rising hl
  rw [topReward, htop]
  exact hle

theorem topReward_nonneg : 0 ≤ g.topReward := by
  rw [topReward]
  cases hlast : g.levels.getLast? with
  | none => exact le_refl 0
  | some l => exact h.nonneg l (List.mem_of_getLast? hlast)

/-- The reward of the level that an amount reaches is between nothing and the highest one. -/
theorem reached_between (x : Rat) : 0 ≤ (g.reached? x).elim 0 (·.reward) ∧
    (g.reached? x).elim 0 (·.reward) ≤ g.topReward := by
  cases hreached : g.reached? x with
  | none => exact ⟨le_refl 0, h.topReward_nonneg⟩
  | some l =>
    obtain ⟨i, _, hl⟩ := Option.bind_eq_some_iff.mp hreached
    have hmem := List.mem_of_getElem? hl
    exact ⟨h.nonneg l hmem, h.le_topReward hmem⟩

end LadderGoal.Rewarding

namespace LadderProgram

variable {p q : LadderProgram Rat} {b : Budget Rat} {s : Scenario Rat} {key : String}
  {solution : List Rat} {method : Method} {iterations : Nat} {r : LadderResult Rat}

/-! ## The ladders of a budget -/

/-- The levels of a debt are a ladder. -/
theorem climbing_debtLevels {minimum share balance : Rat} (hminimum : 0 ≤ minimum)
    (hshare : 0 ≤ share) (hbalance : minimum ≤ balance) :
    Climbing (debtLevels minimum share balance) := by
  have hpart : 0 ≤ minimum * share := mul_nonneg hminimum hshare
  refine ⟨List.cons_ne_nil _ _, ?_, ?_⟩
  · norm_num [debtLevels]
  · simp only [debtLevels, least_eq_min, List.isChain_cons_cons, List.isChain_singleton, and_true]
    refine ⟨⟨le_min (by linarith) hbalance, by norm_num⟩, min_le_min_right _ (by linarith),
      by norm_num⟩

theorem climbing_goalLevels {target weight : Rat} (htarget : 0 ≤ target) (hweight : 0 ≤ weight) :
    Climbing (goalLevels target weight) := by
  refine ⟨List.cons_ne_nil _ _, ?_, ?_⟩
  · simp only [goalLevels, List.forall_mem_cons, List.not_mem_nil, false_imp_iff, implies_true,
      and_true]
    refine ⟨?_, ?_, ?_, ?_, ?_⟩ <;> linarith
  · simp only [goalLevels, List.isChain_cons_cons, List.isChain_singleton, and_true]
    refine ⟨⟨?_, ?_⟩, ⟨?_, ?_⟩, ⟨?_, ?_⟩, ?_, ?_⟩ <;> linarith

theorem climbing_flexibleLevels {minimum maximum weight : Rat} (hmaximum : 0 ≤ maximum)
    (hle : minimum ≤ maximum) (hweight : 0 ≤ weight) :
    Climbing (flexibleLevels minimum maximum weight) := by
  refine ⟨List.cons_ne_nil _ _, ?_, ?_⟩
  · simp only [flexibleLevels, List.forall_mem_cons, List.not_mem_nil, false_imp_iff, implies_true,
      and_true]
    refine ⟨?_, ?_, ?_, ?_⟩ <;> linarith
  · simp only [flexibleLevels, List.isChain_cons_cons, List.isChain_singleton, and_true]
    refine ⟨⟨?_, ?_⟩, ⟨?_, ?_⟩, ?_, ?_⟩ <;> linarith

section
variable (hp : ∀ g ∈ p.goals, g.Rewarding)
include hp

/-- A ladder added keeps all of them rewarding. -/
theorem rewarding_addLadder {v : Variable Rat} {levels : List (Level Rat)} {priority : Int}
    {weight : Rat} {description : String} (hlevels : Climbing levels)
    (h : p.addLadder v key levels priority weight description = .ok q) :
    ∀ g ∈ q.goals, g.Rewarding := by
  obtain ⟨checked, hchecked, h⟩ := bind_eq_ok.mp h
  rw [hlevels.checkLevels] at hchecked
  cases hchecked
  exact GoalProgram.forall_goals_addItem hp (fun _ => ⟨hlevels.nonneg, hlevels.rising⟩) h

theorem rewarding_addMandatory {c : Category Rat} (h : p.addMandatory key c = .ok q) :
    ∀ g ∈ q.goals, g.Rewarding := by
  obtain ⟨v, _, h⟩ := bind_eq_ok.mp h
  exact rewarding_addLadder hp (climbing_singleton (by norm_num)) h

theorem rewarding_addDebt {share : Rat} {d : Debt Rat} (hshare : 0 ≤ share)
    (h : p.addDebt share key d = .ok q) : ∀ g ∈ q.goals, g.Rewarding := by
  unfold addDebt at h
  dsimp only at h
  split at h
  next =>
    obtain ⟨v, _, h⟩ := bind_eq_ok.mp h
    exact rewarding_addLadder hp (climbing_singleton (by norm_num)) h
  next =>
    obtain ⟨v, _, h⟩ := bind_eq_ok.mp h
    refine rewarding_addLadder hp (climbing_debtLevels d.scheduledPayment_nonneg hshare ?_) h
    rw [greatest_eq_max]
    exact le_max_right _ _

theorem rewarding_addGoalItem {factor : Rat} {g : Goal Rat} (hfactor : 0 ≤ factor)
    (h : p.addGoalItem factor key g = .ok q) : ∀ g ∈ q.goals, g.Rewarding := by
  unfold addGoalItem at h
  dsimp only at h
  split at h
  next =>
    cases h
    exact hp
  next =>
    obtain ⟨v, _, h⟩ := bind_eq_ok.mp h
    exact rewarding_addLadder hp
      (climbing_goalLevels (g.target_nonneg hfactor) (goalWeight_nonneg _ _)) h

theorem rewarding_addFlexible {c : Category Rat} (h : p.addFlexible key c = .ok q) :
    ∀ g ∈ q.goals, g.Rewarding := by
  have hminimum : 0 ≤ c.minimum := not_lt.mp c.minimum_nonneg
  have hle : c.minimum ≤ if 0 < c.maximum then c.maximum else c.minimum * 1.5 := by
    split
    next hpos => exact c.minimum_le_of_pos hpos
    next => linarith
  unfold addFlexible at h
  dsimp only at h
  generalize (if 0 < c.maximum then c.maximum else c.minimum * 1.5) = top at h hle
  split at h
  next =>
    cases h
    exact hp
  next =>
    obtain ⟨v, _, h⟩ := bind_eq_ok.mp h
    refine rewarding_addLadder hp (climbing_flexibleLevels (hminimum.trans hle) hle ?_) h
    split_ifs <;> norm_num

end

/-- Along every ladder of a budget the rewards are not negative and do not fall. -/
theorem rewarding_ofBudget (h : ofBudget b s = .ok p) : ∀ g ∈ p.goals, g.Rewarding := by
  obtain ⟨p₁, h₁, h⟩ := bind_eq_ok.mp h
  obtain ⟨p₂, h₂, h⟩ := bind_eq_ok.mp h
  obtain ⟨p₃, h₃, h₄⟩ := bind_eq_ok.mp h
  have hp₁ : ∀ g ∈ p₁.goals, g.Rewarding := foldlM_invariant _
    (fun _ _ _ _ hp hstep => rewarding_addMandatory hp hstep) (by simp [GoalProgram.ofIncome]) h₁
  have hp₂ : ∀ g ∈ p₂.goals, g.Rewarding := foldlM_invariant _
    (fun _ _ _ _ hp hstep => rewarding_addDebt hp (not_lt.mp s.shares.debtExtra_nonneg) hstep)
    hp₁ h₂
  have hp₃ : ∀ g ∈ p₃.goals, g.Rewarding := foldlM_invariant _
    (fun _ _ _ _ hp hstep => rewarding_addGoalItem hp (not_lt.mp s.goalFactor_nonneg) hstep)
    hp₂ h₃
  exact foldlM_invariant _ (fun _ _ _ _ hp hstep => rewarding_addFlexible hp hstep) hp₃ h₄

/-! ## What the goals collect -/

/-- By induction on the goals: each collects no more than its highest level pays. -/
theorem collected_le {standings : List (Standing Rat)}
    (h : ∀ t ∈ standings, t.goal.Rewarding) :
    0 ≤ ((standings.filterMap Standing.level?).map (·.reward)).sum ∧
      ((standings.filterMap Standing.level?).map (·.reward)).sum ≤
        (standings.map (·.goal.topReward)).sum := by
  induction standings with
  | nil => exact ⟨le_refl 0, le_refl 0⟩
  | cons t rest ih =>
    obtain ⟨ht, hrest⟩ := List.forall_mem_cons.mp h
    obtain ⟨hnonneg, hle⟩ := ih hrest
    have hreached := ht.reached_between t.value
    rw [List.map_cons, List.sum_cons]
    cases hlevel : t.level? with
    | none =>
      rw [List.filterMap_cons_none hlevel]
      exact ⟨hnonneg, hle.trans (le_add_of_nonneg_left ht.topReward_nonneg)⟩
    | some l =>
      rw [List.filterMap_cons_some hlevel, List.map_cons, List.sum_cons]
      have hl : t.goal.reached? t.value = some l := hlevel
      rw [hl, Option.elim_some] at hreached
      exact ⟨add_nonneg hreached.1 hnonneg, add_le_add hreached.2 hle⟩

/-- A part of the rewards is collected. -/
theorem rewardRatio_between (hp : ∀ g ∈ p.goals, g.Rewarding)
    (h : p.summarize solution method iterations = .ok r) :
    0 ≤ r.rewardRatio ∧ r.rewardRatio ≤ 1 := by
  obtain ⟨standings, hstandings, h⟩ := bind_eq_ok.mp h
  cases h
  have hgoals : standings.map (·.goal) = p.goals := by
    have hsame : standings.map Standing.goal = p.goals.map id := by
      refine map_eq_of_mapM_eq_ok hstandings fun g t ht => ?_
      obtain ⟨_, _, ht⟩ := bind_eq_ok.mp ht
      cases ht
      rfl
    rwa [List.map_id] at hsame
  have hcollected : 0 ≤ ((standings.filterMap Standing.level?).map (·.reward)).sum ∧
      ((standings.filterMap Standing.level?).map (·.reward)).sum ≤
        (standings.map (·.goal.topReward)).sum := by
    refine collected_le fun t ht => hp _ ?_
    rw [← hgoals]
    exact List.mem_map_of_mem ht
  dsimp only
  rw [total_eq_sum, total_eq_sum, ← hgoals, List.map_map]
  split
  next hpos => exact ⟨div_nonneg hcollected.1 hpos.le, div_le_one_of_le₀ hcollected.2 hpos.le⟩
  next => exact ⟨le_refl 0, zero_le_one⟩

/-- Whatever a backend answers, the score of a budget's program is one from 0 to 100. -/
theorem score_between {backends : Nat → Option (Backend Rat)} (hp : ofBudget b s = .ok p)
    (h : p.solve backends = .ok r) : 0 ≤ r.proposal.score ∧ r.proposal.score ≤ 100 := by
  obtain ⟨solution, method, iterations, _, hsummary⟩ := exists_summarize_of_solve h
  obtain ⟨hnonneg, hle⟩ := rewardRatio_between (rewarding_ofBudget hp) hsummary
  show 0 ≤ r.rewardRatio * 100 ∧ r.rewardRatio * 100 ≤ 100
  constructor <;> linarith

end LadderProgram

end GoalBudget
