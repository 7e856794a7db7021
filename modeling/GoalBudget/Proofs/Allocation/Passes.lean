import GoalBudget.Proofs.Allocation.Within

/-!
# How many passes meet the income

A pass over a surplus either moves all of it or fills some entry up. What can still be filled is
counted by `openings`: one for every goal with room, two for every flexible category below its
target, one for a category between its target and its maximum, or without a maximum. The count never
exceeds one for each goal and two for each flexible category, and falls with every pass that leaves
a surplus (`openings_absorbSurplus_lt`). When nothing is open the budget is `Saturated`.

A deficit takes one pass, as the minimums of the flexible categories fit into the income
(`met_of_recovered`). Passes never turn a surplus into a deficit (`not_over_absorbSurplus`), so the
two kinds do not alternate.

Main result: `settled_normalize`. With enough passes the income is met, or every goal and every
flexible category is full.

What the passes leave is said at the end. Where the amounts are within the income, goals and
flexible categories keep all that they had (`normalize_goal_ge_of_not_over`,
`normalize_flexible_ge_of_not_over`), and flexible categories get nothing more before the goals are
reached (`normalize_flexible_eq_or_goalsFull`). Else a goal keeps its target but for what the other
entries do not cover (`normalize_goal_ge_of_over`).
-/

namespace GoalBudget

variable {b : Budget Rat} {s : Scenario Rat} {p : Pools Rat} {amount committed : Rat}

/-! ## A measure for one sharing -/

/-- The stages that the entries of a ledger have left, all together. -/
def stagesLeft (stage : String → Rat → Nat) (l : Ledger Rat) : Nat := (l.map stage).values.sum

theorem stagesLeft_eq (stage : String → Rat → Nat) (l : Ledger Rat) :
    stagesLeft stage l = (l.entries.map fun e => stage e.1 e.2).sum := by
  rw [stagesLeft, Ledger.values, Ledger.map, List.map_map]
  rfl

/-- None is left if none is left of any entry. -/
theorem stagesLeft_eq_zero_iff {stage : String → Rat → Nat} {l : Ledger Rat} :
    stagesLeft stage l = 0 ↔ ∀ key x, l.get? key = some x → stage key x = 0 := by
  rw [stagesLeft_eq, List.sum_eq_zero_iff]
  constructor
  · intro h key x hx
    exact h _ (List.mem_map.mpr ⟨(key, x), Ledger.get?_eq_some_iff.mp hx, rfl⟩)
  · intro h n hn
    obtain ⟨e, he, rfl⟩ := List.mem_map.mp hn
    exact h e.1 e.2 (Ledger.get?_of_mem he)

/-- No more are left than each entry can have. -/
theorem stagesLeft_le {stage : String → Rat → Nat} {l : Ledger Rat} {most : Nat}
    (h : ∀ key x, stage key x ≤ most) : stagesLeft stage l ≤ most * l.size := by
  rw [stagesLeft_eq]
  refine (List.sum_le_card_nsmul _ most ?_).trans (by simp [Ledger.size, mul_comm])
  intro n hn
  obtain ⟨e, _, rfl⟩ := List.mem_map.mp hn
  exact h e.1 e.2

/-- Stages that no growth adds to, and of which filling an entry takes one: a sharing that
does not move the whole amount leaves fewer. -/
theorem stagesLeft_spread_lt {stage : String → Rat → Nat} {l : Ledger Rat}
    {room : Ledger (Limit Rat)} (h : Sharable amount l room)
    (hkeys : ∀ key ∈ room.keys, key ∈ l.keys)
    (hmono : ∀ key x y, x ≤ y → stage key y ≤ stage key x)
    (hfill : ∀ key x bound, l.get? key = some x → room.get? key = some (.upTo bound) →
      stage key (x + bound) < stage key x)
    (hne : room.entries ≠ []) (hmoved : (spread amount l room).2 ≠ amount) :
    stagesLeft stage (spread amount l room).1 < stagesLeft stage l := by
  obtain ⟨key, bound, hr, hfull⟩ := (spread_all_or_full amount l hne).resolve_left hmoved
  obtain ⟨x, hx⟩ := Ledger.mem_keys_iff.mp (hkeys key (Ledger.mem_keys_of_get? hr))
  rw [spread_fst, stagesLeft, Ledger.map_map, ← stagesLeft, stagesLeft_eq, stagesLeft_eq]
  apply List.sum_lt_sum
  · intro e _
    have hgain := h.spreadGain_nonneg e.1
    exact hmono e.1 _ _ (by linarith)
  · refine ⟨(key, x), Ledger.get?_eq_some_iff.mp hx, ?_⟩
    dsimp only
    rw [hfull]
    exact hfill key x bound hx hr

/-! ## What is still open -/

/-- One for a goal with room, else none. -/
def goalStage (b : Budget Rat) (key : String) (x : Rat) : Nat :=
  if normalizationTolerance < (b.goals.get? key).elim 0 fun g => g.remainingAmount - x then 1
  else 0

/-- Two for a category below its target, none for one at its maximum, else one. -/
def flexibleStage (b : Budget Rat) (s : Scenario Rat) (key : String) (x : Rat) : Nat :=
  (b.flexible.get? key).elim 0 fun c =>
    if x < c.targetAt s.spendingLevel - normalizationTolerance then 2
    else if 0 < c.maximum ∧ c.maximum - x ≤ normalizationTolerance then 0
    else 1

/-- How often an entry can still be filled up. -/
def openings (b : Budget Rat) (s : Scenario Rat) (p : Pools Rat) : Nat :=
  stagesLeft (goalStage b) p.goals + stagesLeft (flexibleStage b s) p.flexible

/-- Every goal is reached and every flexible category has its maximum, but for the
tolerance. -/
def Pools.Saturated (b : Budget Rat) (p : Pools Rat) : Prop :=
  (∀ key x g, p.goals.get? key = some x → b.goals.get? key = some g →
    g.remainingAmount - x ≤ normalizationTolerance) ∧
  ∀ key x c, p.flexible.get? key = some x → b.flexible.get? key = some c →
    0 < c.maximum ∧ c.maximum - x ≤ normalizationTolerance

/-- Every goal is reached, but for the tolerance. -/
def Pools.GoalsFull (b : Budget Rat) (p : Pools Rat) : Prop :=
  ∀ key x g, p.goals.get? key = some x → b.goals.get? key = some g →
    g.remainingAmount - x ≤ normalizationTolerance

/-- A goal has one stage. -/
theorem goalStage_le_one (key : String) (x : Rat) : goalStage b key x ≤ 1 := by
  unfold goalStage
  split <;> omega

theorem flexibleStage_le_two (key : String) (x : Rat) : flexibleStage b s key x ≤ 2 := by
  unfold flexibleStage
  cases b.flexible.get? key with
  | none => exact Nat.zero_le 2
  | some c =>
    rw [Option.elim_some]
    split
    next => exact le_refl 2
    next => split <;> omega

/-- More in a goal does not open it again. -/
theorem goalStage_mono (key : String) (x y : Rat) (h : x ≤ y) :
    goalStage b key y ≤ goalStage b key x := by
  by_cases hopen : goalStage b key x = 1
  · rw [hopen]
    exact goalStage_le_one key y
  · unfold goalStage at hopen ⊢
    cases hg : b.goals.get? key with
    | none => exact le_refl _
    | some g =>
      rw [hg, Option.elim_some] at hopen
      have hclosed : ¬normalizationTolerance < g.remainingAmount - x := fun hlt =>
        hopen (if_pos hlt)
      rw [Option.elim_some, Option.elim_some, if_neg hclosed, if_neg]
      intro hlt
      exact hclosed (by linarith)

theorem flexibleStage_mono (key : String) (x y : Rat) (h : x ≤ y) :
    flexibleStage b s key y ≤ flexibleStage b s key x := by
  by_cases hbelow : flexibleStage b s key x = 2
  · rw [hbelow]
    exact flexibleStage_le_two key y
  · unfold flexibleStage at hbelow ⊢
    cases hc : b.flexible.get? key with
    | none => exact le_refl _
    | some c =>
      rw [hc, Option.elim_some] at hbelow
      have htarget : ¬x < c.targetAt s.spendingLevel - normalizationTolerance := fun hlt =>
        hbelow (if_pos hlt)
      have htarget' : ¬y < c.targetAt s.spendingLevel - normalizationTolerance := fun hlt =>
        htarget (lt_of_le_of_lt h hlt)
      rw [Option.elim_some, Option.elim_some, if_neg htarget, if_neg htarget']
      by_cases hfull : 0 < c.maximum ∧ c.maximum - x ≤ normalizationTolerance
      · rw [if_pos hfull, if_pos ⟨hfull.1, by linarith [hfull.2]⟩]
      · rw [if_neg hfull]
        split <;> omega

/-- The openings of a budget are bounded by its size. -/
theorem openings_le (h : p.Within b) :
    openings b s p ≤ b.goals.size + 2 * b.flexible.size := by
  have hgoals : stagesLeft (goalStage b) p.goals ≤ 1 * p.goals.size :=
    stagesLeft_le goalStage_le_one
  have hflexible : stagesLeft (flexibleStage b s) p.flexible ≤ 2 * p.flexible.size :=
    stagesLeft_le flexibleStage_le_two
  have hgoalsSize : p.goals.size = b.goals.size := by
    rw [← Ledger.length_keys, h.goals_keys, Ledger.keys_sorted_perm.length_eq, Ledger.length_keys]
  have hflexibleSize : p.flexible.size = b.flexible.size := by
    rw [← Ledger.length_keys, h.flexible_keys, Ledger.keys_sorted_perm.length_eq,
      Ledger.length_keys]
  unfold openings
  omega

/-- Where nothing is open everything is full. -/
theorem saturated_of_openings_eq_zero (h : openings b s p = 0) : p.Saturated b := by
  obtain ⟨hgoals, hflexible⟩ := Nat.add_eq_zero_iff.mp h
  constructor
  · intro key x g hx hg
    have hstage := stagesLeft_eq_zero_iff.mp hgoals key x hx
    unfold goalStage at hstage
    rw [hg, Option.elim_some] at hstage
    by_contra hroom
    rw [if_pos (not_le.mp hroom)] at hstage
    exact one_ne_zero hstage
  · intro key x c hx hc
    have hstage := stagesLeft_eq_zero_iff.mp hflexible key x hx
    unfold flexibleStage at hstage
    rw [hc, Option.elim_some] at hstage
    -- Below its target a category has two stages left, below its maximum one.
    split at hstage
    next => exact absurd hstage two_ne_zero
    next =>
      split at hstage
      next hfull => exact hfull
      next => exact absurd hstage one_ne_zero

/-! ## One pass -/

/-- A goal that is filled is closed. -/
theorem goalStage_fill (h : p.Within b) {key : String} {x bound : Rat}
    (hx : p.goals.get? key = some x)
    (hr : (goalRoom b p.goals).get? key = some (.upTo bound)) :
    goalStage b key (x + bound) < goalStage b key x := by
  obtain ⟨g, hg, _⟩ := h.goal_of_get? hx
  obtain ⟨y, hy, hroom, hbound⟩ := get?_goalRoom.mp hr
  rw [hx, Option.some.injEq] at hy
  subst hy
  rw [hg, Option.elim_some] at hroom hbound
  injection hbound with hbound
  have hfull : ¬normalizationTolerance < g.remainingAmount - (x + bound) := by
    have := normalizationTolerance_nonneg
    rw [hbound]
    exact not_lt.mpr (by linarith)
  unfold goalStage
  rw [hg, Option.elim_some, Option.elim_some, if_neg hfull, if_pos hroom]
  exact one_pos

/-- A category that is filled to its cap has one stage less. -/
theorem flexibleStage_fill (h : p.Within b) {key : String} {x bound : Rat}
    (hx : p.flexible.get? key = some x)
    (hr : (flexibleRoom b s p.flexible).get? key = some (.upTo bound)) :
    flexibleStage b s key (x + bound) < flexibleStage b s key x := by
  obtain ⟨c, hc, hadmits⟩ := h.category_of_get? hx
  obtain ⟨hroom, y, hy, hbound⟩ := get?_flexibleRoom.mp hr
  rw [hx, Option.some.injEq] at hy
  subst hy
  have htolerance := normalizationTolerance_nonneg
  have hpositive : normalizationTolerance < bound := of_decide_eq_true hroom
  rw [hc, Option.elim_some, flexibleCap] at hbound
  unfold flexibleStage
  rw [hc, Option.elim_some, Option.elim_some]
  split at hbound
  next htarget =>
    split at hbound
    next hmax =>
      -- Past its target, the category is filled up to its maximum.
      injection hbound with hbound
      rw [if_neg (by linarith), if_pos ⟨hmax, by linarith⟩, if_neg (by linarith), if_neg]
      · exact one_pos
      · rintro ⟨_, hle⟩
        linarith
    next => cases hbound
  next htarget =>
    -- Below its target, the category is filled up to the target.
    injection hbound with hbound
    rw [if_neg (by linarith), if_pos (not_le.mp htarget)]
    split <;> omega

/-- A pass that leaves some of the surplus takes one of the openings. -/
theorem openings_absorbSurplus_lt (h : p.Within b) (hamount : 0 < amount)
    (hpos : 0 < (absorbSurplus b s amount p).2) (hleft : (absorbSurplus b s amount p).2 ≠ amount) :
    openings b s (absorbSurplus b s amount p).1 < openings b s p := by
  rcases absorbSurplus_cases s h hamount with ⟨hne, heq⟩ | ⟨_, heq⟩
  · rw [heq] at hleft ⊢
    exact Nat.add_lt_add_right (stagesLeft_spread_lt (sharable_goals h hamount)
      keys_goalRoom_subset goalStage_mono (fun _ _ _ => goalStage_fill h) hne hleft) _
  · rw [heq] at hpos hleft ⊢
    have hne : (flexibleRoom b s p.flexible).entries ≠ [] := by
      intro hempty
      rw [spread_of_isEmpty hempty] at hpos
      exact lt_irrefl 0 hpos
    exact Nat.add_lt_add_left (stagesLeft_spread_lt (sharable_flexible h hamount)
      keys_flexibleRoom_subset flexibleStage_mono (fun _ _ _ => flexibleStage_fill h) hne hleft) _

/-- Where no goal has room, every goal is reached. -/
theorem goalsFull_of_goalRoom (h : (goalRoom b p.goals).entries = []) : p.GoalsFull b := by
  intro key x g hx hg
  by_contra hroom
  have hmem : (goalRoom b p.goals).get? key = some (.upTo (g.remainingAmount - x)) :=
    get?_goalRoom.mpr ⟨x, hx, by rw [hg]; exact not_le.mp hroom, by rw [hg]; rfl⟩
  rw [Ledger.get?, h] at hmem
  cases hmem

/-- A pass moves nothing only when nothing is open. -/
theorem saturated_of_absorbSurplus_le (h : p.Within b) (hamount : 0 < amount)
    (hnone : (absorbSurplus b s amount p).2 ≤ 0) :
    (absorbSurplus b s amount p).1.Saturated b := by
  rcases absorbSurplus_cases s h hamount with ⟨hne, heq⟩ | ⟨hgoals, heq⟩
  -- a goal with room would have taken a positive part
  · rw [heq] at hnone
    exact absurd ((sharable_goals h hamount).spread_pos hne) (not_lt.mpr hnone)
  · have hflexible : (flexibleRoom b s p.flexible).entries = [] := by
      by_contra hne
      rw [heq] at hnone
      exact absurd ((sharable_flexible h hamount).spread_pos hne) (not_lt.mpr hnone)
    rw [heq, spread_of_isEmpty hflexible]
    constructor
    · exact goalsFull_of_goalRoom hgoals
    · intro key x c hx hc
      -- a category is full at its maximum or at its target, whichever holds it down
      have hnoRoom :
          ¬((flexibleCap s.spendingLevel c x).minus x).exceeds normalizationTolerance = true := by
        intro hroom
        have hmem : (flexibleRoom b s p.flexible).get? key =
            some ((flexibleCap s.spendingLevel c x).minus x) :=
          get?_flexibleRoom.mpr ⟨hroom, x, hx, by rw [hc]; rfl⟩
        rw [Ledger.get?, hflexible] at hmem
        cases hmem
      unfold flexibleCap at hnoRoom
      dsimp only at hnoRoom
      split at hnoRoom
      next =>
        split at hnoRoom
        next hmax => exact ⟨hmax, not_lt.mp fun hlt => hnoRoom (decide_eq_true hlt)⟩
        next => exact absurd rfl hnoRoom
      next htarget =>
        have hlt : normalizationTolerance < c.targetAt s.spendingLevel - x := by linarith
        exact absurd (decide_eq_true hlt) hnoRoom

/-! ## All passes -/

/-- What a normalization ends with: amounts within bounds that do not exceed the income, and
meet it unless everything is full. -/
structure Settled (b : Budget Rat) (committed : Rat) (p : Pools Rat) : Prop where
  /-- All amounts are within bounds. -/
  within : p.Within b
  /-- The amounts do not exceed the income. -/
  not_over : -normalizationTolerance ≤ residual b.income committed p
  /-- The income is met, or everything is full. -/
  met_or_full : residual b.income committed p ≤ normalizationTolerance ∨ p.Saturated b

theorem residual_eq : residual b.income committed p =
    b.income - committed - (p.flexible.values.sum + p.goals.values.sum) := by
  simp only [residual, total_eq_sum]
  ring

/-- A pass over a surplus leaves what has not moved. -/
theorem residual_absorbSurplus (h : p.Within b) (hpos : 0 < residual b.income committed p) :
    residual b.income committed (absorbSurplus b s (residual b.income committed p) p).1 =
      residual b.income committed p -
        (absorbSurplus b s (residual b.income committed p) p).2 := by
  rw [residual_eq, absorbSurplus_balance h hpos, residual_eq]
  ring

/-- A pass over a surplus does not go beyond the income. -/
theorem not_over_absorbSurplus (h : p.Within b) (hpos : 0 < residual b.income committed p) :
    -normalizationTolerance ≤
      residual b.income committed (absorbSurplus b s (residual b.income committed p) p).1 := by
  have hle := absorbSurplus_le (s := s) h hpos
  have := normalizationTolerance_nonneg
  rw [residual_absorbSurplus h hpos]
  linarith

/-- What is neither met nor a deficit is a surplus. -/
theorem residual_pos_of_not_met (hover : -normalizationTolerance ≤ residual b.income committed p)
    (hmissing : ¬|residual b.income committed p| ≤ normalizationTolerance) :
    0 < residual b.income committed p := by
  by_contra hnot
  exact hmissing (abs_le.mpr ⟨hover, (not_lt.mp hnot).trans normalizationTolerance_nonneg⟩)

/-- Amounts that meet the income are left alone. -/
theorem normalize_of_met (passes : Nat)
    (h : |residual b.income committed p| ≤ normalizationTolerance) :
    normalize b s committed passes p = p := by
  cases passes with
  | zero => rfl
  | succ passes =>
    unfold normalize
    dsimp only
    rw [magnitude_eq_abs, if_pos h]

/-- An income that is met is left alone. -/
theorem settled_of_met (passes : Nat) (h : p.Within b)
    (hmet : |residual b.income committed p| ≤ normalizationTolerance) :
    Settled b committed (normalize b s committed passes p) := by
  rw [normalize_of_met passes hmet]
  exact ⟨h, neg_le_of_abs_le hmet, .inl (le_of_abs_le hmet)⟩

/-- As many passes as there are openings settle a surplus. By induction on the passes: a pass
moves the whole surplus, or leaves fewer openings, or finds nothing open. -/
theorem settled_of_surplus (passes : Nat) (h : p.Within b)
    (hover : -normalizationTolerance ≤ residual b.income committed p)
    (hopen : openings b s p ≤ passes) : Settled b committed (normalize b s committed passes p) := by
  induction passes generalizing p with
  | zero =>
    exact ⟨h, hover, .inr (saturated_of_openings_eq_zero (Nat.le_zero.mp hopen))⟩
  | succ passes ih =>
    unfold normalize
    dsimp only
    rw [magnitude_eq_abs]
    split
    next hmet => exact ⟨h, hover, .inl (le_of_abs_le hmet)⟩
    next hmissing =>
      have hpos := residual_pos_of_not_met hover hmissing
      rw [if_pos hpos]
      have hwithin := within_absorbSurplus (s := s) h hpos
      have hover' := not_over_absorbSurplus (s := s) h hpos
      split
      next hnone =>
        exact ⟨hwithin, hover', .inr (saturated_of_absorbSurplus_le h hpos hnone)⟩
      next hmoved =>
        by_cases hall : (absorbSurplus b s (residual b.income committed p) p).2 =
            residual b.income committed p
        · apply settled_of_met passes hwithin
          rw [residual_absorbSurplus h hpos, hall, sub_self, abs_zero]
          exact normalizationTolerance_nonneg
        -- something moved but not all, so an opening was closed
        · exact ih hwithin hover' (Nat.le_of_lt_succ (lt_of_lt_of_le
            (openings_absorbSurplus_lt h hpos (not_le.mp hmoved) hall) hopen))

/-- One pass settles a deficit: what can be trimmed is all but the minimums, and those fit. -/
theorem met_of_recovered {p' : Pools Rat} {trimmed : Rat} (h : p.Within b)
    (hminimums : committed + (b.flexible.map fun _ c => c.minimum).values.sum ≤
      b.income + normalizationTolerance)
    (hrec : Recovered b (-residual b.income committed p) p p' trimmed) :
    |residual b.income committed p'| ≤ normalizationTolerance := by
  have hnext : residual b.income committed p' = residual b.income committed p + trimmed := by
    have := hrec.balance
    rw [residual_eq, residual_eq]
    linarith
  have htrimmed := hrec.trimmed
  rw [excessOver_minimumFloors h] at htrimmed
  have hneeded : residual b.income committed p =
      b.income - committed - (p.flexible.values.sum + p.goals.values.sum) := residual_eq
  have htolerance := normalizationTolerance_nonneg
  rw [hnext, abs_le]
  rcases min_choice (-residual b.income committed p)
    (p.goals.values.sum +
      (p.flexible.values.sum - (b.flexible.map fun _ c => c.minimum).values.sum)) with hmin | hmin
  · rw [htrimmed, hmin]
    constructor <;> linarith
  -- all that can be trimmed is trimmed; the minimums fit, so it is enough
  · have hle : trimmed ≤ -residual b.income committed p := htrimmed.le.trans (min_le_left _ _)
    rw [hmin] at htrimmed
    constructor <;> linarith

/-- A deficit takes one pass. -/
theorem normalize_of_over {passes : Nat} (h : p.Within b)
    (hminimums : committed + (b.flexible.map fun _ c => c.minimum).values.sum ≤
      b.income + normalizationTolerance)
    (hover : residual b.income committed p < -normalizationTolerance) (hpos : 0 < passes) :
    normalize b s committed passes p =
        (recoverDeficit b s (-residual b.income committed p) p).1 ∧
      |residual b.income committed (normalize b s committed passes p)| ≤
        normalizationTolerance := by
  have hmissing : residual b.income committed p < 0 := by
    have := normalizationTolerance_nonneg
    linarith
  have hrec : Recovered b (-residual b.income committed p) p _ _ :=
    recovered_recoverDeficit (s := s) (by linarith) h.goals_nonneg
  have hmet := met_of_recovered h hminimums hrec
  have heq : normalize b s committed passes p =
      (recoverDeficit b s (-residual b.income committed p) p).1 := by
    obtain ⟨passes, rfl⟩ := Nat.exists_eq_succ_of_ne_zero hpos.ne'
    unfold normalize
    dsimp only
    rw [magnitude_eq_abs, if_neg (fun hle => not_le.mpr hover (neg_le_of_abs_le hle)),
      if_neg (not_lt.mpr hmissing.le)]
    split
    next => rfl
    next => exact normalize_of_met passes hmet
  exact ⟨heq, heq ▸ hmet⟩

/-- With a pass for every goal and two for every flexible category the income is met, or every
goal and every flexible category is full. -/
theorem settled_normalize {passes : Nat} (h : p.Within b)
    (hminimums : committed + (b.flexible.map fun _ c => c.minimum).values.sum ≤
      b.income + normalizationTolerance)
    (hpasses : b.goals.size + 2 * b.flexible.size ≤ passes) (hpos : 0 < passes) :
    Settled b committed (normalize b s committed passes p) := by
  by_cases hover : -normalizationTolerance ≤ residual b.income committed p
  · exact settled_of_surplus passes h hover ((openings_le h).trans hpasses)
  · obtain ⟨_, hmet⟩ := normalize_of_over (s := s) h hminimums (not_le.mp hover) hpos
    exact ⟨within_normalize committed passes h, neg_le_of_abs_le hmet, .inl (le_of_abs_le hmet)⟩

/-! ## What the passes keep -/

/-- What every pass over a surplus keeps holds in the end, where the amounts are within the income
at the start. -/
theorem normalize_keeps {P : Pools Rat → Prop}
    (hstep : ∀ p : Pools Rat, p.Within b → 0 < residual b.income committed p → P p →
      P (absorbSurplus b s (residual b.income committed p) p).1)
    (passes : Nat) (h : p.Within b)
    (hover : -normalizationTolerance ≤ residual b.income committed p) (hp : P p) :
    P (normalize b s committed passes p) := by
  induction passes generalizing p with
  | zero => exact hp
  | succ passes ih =>
    unfold normalize
    dsimp only
    rw [magnitude_eq_abs]
    split
    next => exact hp
    next hmissing =>
      have hpos := residual_pos_of_not_met hover hmissing
      have hnext := hstep p h hpos hp
      rw [if_pos hpos]
      split
      next => exact hnext
      next => exact ih (within_absorbSurplus h hpos) (not_over_absorbSurplus h hpos) hnext

section
variable (passes : Nat) (h : p.Within b)
  (hover : -normalizationTolerance ≤ residual b.income committed p) {key : String} {x : Rat}
include h hover

/-- Where the amounts are within the income, no pass takes anything from a goal. -/
theorem normalize_goal_ge_of_not_over (hx : p.goals.get? key = some x) :
    ∃ y, (normalize b s committed passes p).goals.get? key = some y ∧ x ≤ y := by
  refine normalize_keeps (P := fun q => ∃ y, q.goals.get? key = some y ∧ x ≤ y) ?_ passes h hover
    ⟨x, hx, le_refl x⟩
  rintro q hq hpos ⟨y, hy, hle⟩
  obtain ⟨z, hz, hle'⟩ := absorbSurplus_goal_ge (s := s) hq hpos hy
  exact ⟨z, hz, hle.trans hle'⟩

/-- Where the amounts are within the income, no pass takes anything from a flexible category. -/
theorem normalize_flexible_ge_of_not_over (hx : p.flexible.get? key = some x) :
    ∃ y, (normalize b s committed passes p).flexible.get? key = some y ∧ x ≤ y := by
  refine normalize_keeps (P := fun q => ∃ y, q.flexible.get? key = some y ∧ x ≤ y) ?_ passes h
    hover ⟨x, hx, le_refl x⟩
  rintro q hq hpos ⟨y, hy, hle⟩
  obtain ⟨z, hz, hle'⟩ := absorbSurplus_flexible_ge (s := s) hq hpos hy
  exact ⟨z, hz, hle.trans hle'⟩

/-- Flexible categories get nothing of a surplus before every goal is reached. -/
theorem normalize_flexible_eq_or_goalsFull :
    (normalize b s committed passes p).flexible = p.flexible ∨
      (normalize b s committed passes p).GoalsFull b ∧
        0 ≤ residual b.income committed (normalize b s committed passes p) := by
  refine normalize_keeps (P := fun q => q.flexible = p.flexible ∨
    q.GoalsFull b ∧ 0 ≤ residual b.income committed q) ?_ passes h hover (.inl rfl)
  intro q hq hpos hkept
  have hrest : 0 ≤ residual b.income committed
      (absorbSurplus b s (residual b.income committed q) q).1 := by
    rw [residual_absorbSurplus hq hpos]
    exact sub_nonneg.mpr (absorbSurplus_le hq hpos)
  rcases absorbSurplus_cases s hq hpos with ⟨_, heq⟩ | ⟨hgoals, heq⟩
  -- goals take the surplus, and those that are reached stay so
  · rcases hkept with hsame | ⟨hfull, _⟩
    · left
      rw [heq]
      exact hsame
    · refine .inr ⟨fun key y g hy hg => ?_, hrest⟩
      have hkeys : key ∈ q.goals.keys := by
        rw [hq.goals_keys, ← (within_absorbSurplus (s := s) hq hpos).goals_keys]
        exact Ledger.mem_keys_of_get? hy
      obtain ⟨x, hx⟩ := Ledger.mem_keys_iff.mp hkeys
      obtain ⟨z, hz, hle⟩ := absorbSurplus_goal_ge (s := s) hq hpos hx
      cases hy.symm.trans hz
      have := hfull key x g hx hg
      linarith
  -- flexible categories take it, so no goal has room
  · refine .inr ⟨?_, hrest⟩
    rw [heq]
    exact goalsFull_of_goalRoom hgoals

end

/-- Where the amounts go beyond the income, a goal falls below its target by no more than what the
other entries do not cover. -/
theorem normalize_goal_ge_of_over {passes : Nat} (h : p.Within b)
    (hminimums : committed + (b.flexible.map fun _ c => c.minimum).values.sum ≤
      b.income + normalizationTolerance)
    (hover : residual b.income committed p < -normalizationTolerance) (hpos : 0 < passes)
    {key : String} {x : Rat} (hx : p.goals.get? key = some x) :
    ∃ y, (normalize b s committed passes p).goals.get? key = some y ∧
      min x ((targetFloors b s).getD key 0) -
        uncovered b s (-residual b.income committed p) p ≤ y := by
  have := normalizationTolerance_nonneg
  rw [(normalize_of_over h hminimums hover hpos).1]
  exact recoverDeficit_goal_ge (by linarith) hx

end GoalBudget
