import GoalBudget.Ladder.Basic
import GoalBudget.Proofs.Number.Exact

/-!
# Choosing a level of a ladder

In a program for a backend a ladder is a row of cells, one per level, of which at most one is one
and the others are zero. A level may be chosen for an amount that reaches it (`LadderGoal.Chooses`).

Rewards that do not fall along the ladder make the highest level that is reached the best choice: no
choice is worth more than its reward (`Chooses.worth_le`), and one is worth as much
(`exists_chooses`). Choosing nothing is a choice as well, and the best one where no level is
reached.

The level reached is meant without tolerance here (`highest?`), since a row of the program has none.
-/

namespace GoalBudget

theorem sum_eq_count_one {cells : List Rat} (h : ∀ c ∈ cells, c = 0 ∨ c = 1) :
    cells.sum = cells.count 1 := by
  induction cells with
  | nil => rfl
  | cons c rest ih =>
    obtain ⟨hc, hrest⟩ := List.forall_mem_cons.mp h
    rw [List.sum_cons, ih hrest]
    rcases hc with rfl | rfl
    · rw [zero_add, List.count_cons_of_ne zero_ne_one]
    · rw [List.count_cons_self, Nat.cast_add, Nat.cast_one, add_comm]

namespace LadderGoal

variable {g : LadderGoal Rat} {x : Rat} {cells : List Rat}

/-- The highest level that an amount reaches, without any tolerance: the last one in the order of
the ladder, which ascends. -/
def highest? (g : LadderGoal Rat) (x : Rat) : Option (Level Rat) :=
  g.levels.reverse.find? fun l => l.value ≤ x

/-- The reward of the highest level that an amount reaches; zero if it reaches none. -/
def rewardAt (g : LadderGoal Rat) (x : Rat) : Rat := (g.highest? x).elim 0 (·.reward)

/-- Whether rewards are not negative and do not fall along the ladder. -/
structure Rewarding (g : LadderGoal Rat) : Prop where
  nonneg : ∀ l ∈ g.levels, 0 ≤ l.reward
  rising : g.levels.Pairwise (·.reward ≤ ·.reward)

/-- Whether cells choose at most one level, and one that asks for nothing or that the amount
reaches. -/
structure Chooses (g : LadderGoal Rat) (x : Rat) (cells : List Rat) : Prop where
  length_eq : cells.length = g.levels.length
  binary : ∀ c ∈ cells, c = 0 ∨ c = 1
  atMostOne : cells.count 1 ≤ 1
  reached : ∀ l ∈ g.levels.zip cells, l.2 = 1 → l.1.value ≤ 0 ∨ l.1.value ≤ x

instance (g : LadderGoal Rat) (x : Rat) (cells : List Rat) : Decidable (g.Chooses x cells) :=
  decidable_of_iff (cells.length = g.levels.length ∧ (∀ c ∈ cells, c = 0 ∨ c = 1) ∧
      cells.count 1 ≤ 1 ∧ ∀ l ∈ g.levels.zip cells, l.2 = 1 → l.1.value ≤ 0 ∨ l.1.value ≤ x)
    ⟨fun h => ⟨h.1, h.2.1, h.2.2.1, h.2.2.2⟩,
      fun h => ⟨h.length_eq, h.binary, h.atMostOne, h.reached⟩⟩

/-- The reward of what is chosen. -/
def worth (g : LadderGoal Rat) (cells : List Rat) : Rat :=
  ((g.levels.zip cells).map fun l => l.1.reward * l.2).sum

/-- Below the highest level that is reached are lower ones, above it those that are not reached. -/
theorem highest?_eq_some {l : Level Rat} (h : g.highest? x = some l) :
    l.value ≤ x ∧ ∃ lower higher, g.levels = lower ++ l :: higher ∧ ∀ m ∈ higher, x < m.value := by
  obtain ⟨hreached, above, below, hsplit, habove⟩ := List.find?_eq_some_iff_append.mp h
  refine ⟨of_decide_eq_true hreached, below.reverse, above.reverse, ?_, fun m hm => ?_⟩
  · rw [← List.reverse_reverse g.levels, hsplit]
    simp
  · have hnot := habove m (List.mem_reverse.mp hm)
    simpa using hnot

/-- If no level is reached, the amount is below all of them. -/
theorem highest?_eq_none (h : g.highest? x = none) (l : Level Rat) (hl : l ∈ g.levels) :
    x < l.value := by
  have hnot := List.find?_eq_none.mp h l (List.mem_reverse.mpr hl)
  simpa using hnot

namespace Rewarding

variable (h : g.Rewarding)
include h

theorem rewardAt_nonneg (x : Rat) : 0 ≤ g.rewardAt x := by
  rw [rewardAt]
  cases hl : g.highest? x with
  | none => exact le_refl 0
  | some l =>
    obtain ⟨_, lower, higher, hsplit, _⟩ := highest?_eq_some hl
    exact h.nonneg l (hsplit ▸ List.mem_append_right _ (List.mem_cons_self ..))

/-- No level that is reached has a greater reward than the highest one. -/
theorem le_rewardAt {l : Level Rat} (hl : l ∈ g.levels) (hx : l.value ≤ x) :
    l.reward ≤ g.rewardAt x := by
  rw [rewardAt]
  cases hbest : g.highest? x with
  | none => exact absurd hx (not_le.mpr (highest?_eq_none hbest l hl))
  | some best =>
    obtain ⟨_, lower, higher, hsplit, hhigher⟩ := highest?_eq_some hbest
    have hrising := h.rising
    rw [hsplit] at hl hrising
    rcases List.mem_append.mp hl with hl | hl
    · exact (List.pairwise_append.mp hrising).2.2 l hl best (List.mem_cons_self ..)
    · rcases List.mem_cons.mp hl with rfl | hl
      · exact le_refl _
      · exact absurd hx (not_le.mpr (hhigher l hl))

end Rewarding

/-- A choice is worth no more than the highest level that is reached. -/
theorem Chooses.worth_le (h : g.Chooses x cells) (hrewards : g.Rewarding) (hx : 0 ≤ x) :
    g.worth cells ≤ g.rewardAt x := by
  have hbest := hrewards.rewardAt_nonneg x
  have hcell : ∀ l ∈ g.levels.zip cells, l.1.reward * l.2 ≤ g.rewardAt x * l.2 := by
    intro l hl
    obtain ⟨hlevel, hmem⟩ := List.of_mem_zip hl
    rcases h.binary l.2 hmem with hzero | hone
    · rw [hzero, mul_zero, mul_zero]
    · rw [hone, mul_one, mul_one]
      have hreached : l.1.value ≤ x := (h.reached l hl hone).elim (·.trans hx) fun hle => hle
      exact hrewards.le_rewardAt hlevel hreached
  have hcount : cells.sum ≤ 1 := by
    rw [sum_eq_count_one h.binary]
    exact_mod_cast h.atMostOne
  calc g.worth cells
      ≤ ((g.levels.zip cells).map fun l => g.rewardAt x * l.2).sum := List.sum_le_sum hcell
    _ = g.rewardAt x * cells.sum := by
      rw [List.sum_map_mul_left, List.map_snd_zip h.length_eq.le]
    _ ≤ g.rewardAt x := mul_le_of_le_one_right hbest hcount

theorem sum_zip_zeros (levels : List (Level Rat)) (n : Nat) :
    ((levels.zip (List.replicate n (0 : Rat))).map fun l => l.1.reward * l.2).sum = 0 := by
  refine List.sum_eq_zero fun v hv => ?_
  obtain ⟨l, hl, rfl⟩ := List.mem_map.mp hv
  rw [List.eq_of_mem_replicate (List.of_mem_zip hl).2, mul_zero]

/-- The highest level that is reached can be chosen. -/
theorem exists_chooses (g : LadderGoal Rat) (x : Rat) :
    ∃ cells, g.Chooses x cells ∧ g.worth cells = g.rewardAt x := by
  have hzeros {n : Nat} {c : Rat} (hc : c ∈ List.replicate n (0 : Rat)) : c ≠ 1 := by
    rw [List.eq_of_mem_replicate hc]
    exact zero_ne_one
  rw [rewardAt]
  cases hbest : g.highest? x with
  | none =>
    -- No level is reached: every cell is zero.
    refine ⟨List.replicate g.levels.length 0, ⟨List.length_replicate, ?_, ?_, ?_⟩,
      sum_zip_zeros _ _⟩
    · exact fun c hc => .inl (List.eq_of_mem_replicate hc)
    · rw [List.count_eq_zero_of_not_mem fun hone => hzeros hone rfl]
      exact Nat.zero_le 1
    · exact fun l hl hone => absurd hone (hzeros (List.of_mem_zip hl).2)
  | some best =>
    obtain ⟨hreached, lower, higher, hsplit, _⟩ := highest?_eq_some hbest
    -- The highest level that is reached gets the one, every level before and behind it a zero.
    have hzip : g.levels.zip (List.replicate lower.length 0 ++ (1 : Rat) ::
        List.replicate higher.length 0) =
          lower.zip (List.replicate lower.length 0) ++ (best, 1) ::
            higher.zip (List.replicate higher.length 0) := by
      rw [hsplit, List.zip_append List.length_replicate.symm, List.zip_cons_cons]
    refine ⟨List.replicate lower.length 0 ++ 1 :: List.replicate higher.length 0,
      ⟨?_, ?_, ?_, ?_⟩, ?_⟩
    · rw [hsplit]
      simp
    · intro c hc
      rcases List.mem_append.mp hc with hc | hc
      · exact .inl (List.eq_of_mem_replicate hc)
      · rcases List.mem_cons.mp hc with rfl | hc
        · exact .inr rfl
        · exact .inl (List.eq_of_mem_replicate hc)
    · rw [List.count_append, List.count_cons_self,
        List.count_eq_zero_of_not_mem fun hone => hzeros hone rfl,
        List.count_eq_zero_of_not_mem fun hone => hzeros hone rfl]
    · rw [hzip]
      intro l hl hone
      rcases List.mem_append.mp hl with hl | hl
      · exact absurd hone (hzeros (List.of_mem_zip hl).2)
      · rcases List.mem_cons.mp hl with rfl | hl
        · exact .inr hreached
        · exact absurd hone (hzeros (List.of_mem_zip hl).2)
    · rw [worth, hzip, List.map_append, List.map_cons, List.sum_append, List.sum_cons,
        sum_zip_zeros, sum_zip_zeros, zero_add, add_zero, mul_one]
      rfl

end LadderGoal

end GoalBudget
