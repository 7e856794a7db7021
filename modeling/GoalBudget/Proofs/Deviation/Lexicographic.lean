import GoalBudget.Proofs.Deviation.Preemptive
import GoalBudget.Proofs.Number.Stable
import GoalBudget.Proofs.Strategy.Affordable

/-!
# Goals in strict order: the lexicographic optimum

All goals ask for at least their target, so a goal served only ever raises its variable. After its
turn a goal is settled (`Settled`): it has reached its target, or its variable is at its upper
bound, or nothing is left. A settled goal keeps its deviation for the rest of the run
(`Serves.settled_give`).

Every prefix of the goals is served with the least possible spend. So an allocation that gives every
variable at least as much as the run has given so far cannot do better on the next goal, and where
it does as well, it again gives at least as much as the run has given then (`Serves.least`). By
induction no allocation has smaller deviations in the order of service (`not_lex_foldl_serve`).

Several goals may share a variable: a goal that finds its target reached takes nothing, and its
deviation is zero from then on. That makes the exchange argument go through without assumptions on
how goals and variables go together. The allocations compared with are those within the bounds that
the income affords; they need not come from any run.

Main result: `solvePreemptive_optimal`.
-/

namespace GoalBudget

/-- The limit above of a variable, if it has one. -/
def Variable.limit (v : Variable Rat) : Limit Rat :=
  if v.isBounded then .upTo v.maximum else .endless

/-- Amounts within their bounds that make up the income with what is left are affordable. -/
theorem Funds.Sound.affords {γ : Type} [Scores γ] {p : GoalProgram Rat γ} {f : Funds Rat}
    (h : f.Sound p.vars 0 p.income) : p.Affords Variable.limit f.amounts := by
  refine GoalProgram.affords_iff.mpr ⟨h.length, fun i v hv => ⟨h.above i v hv, ?_⟩, ?_⟩
  · rw [Variable.limit]
    split
    next hbounded =>
      have hbelow := h.below i v hv hbounded
      rwa [add_zero] at hbelow
    next => trivial
  · linarith [h.balance, h.left_nonneg]

/-- What one amount exceeds another by is no more than what all do, if none falls short. -/
theorem getD_sub_le_sum_sub {xs ys : List Rat} (hlen : xs.length = ys.length)
    (h : ∀ i, xs.getD i 0 ≤ ys.getD i 0) (i : Nat) :
    ys.getD i 0 - xs.getD i 0 ≤ ys.sum - xs.sum := by
  induction xs generalizing ys i with
  | nil =>
    cases List.eq_nil_of_length_eq_zero hlen.symm
    simp
  | cons x xs ih =>
    cases ys with
    | nil => cases hlen
    | cons y ys =>
      have hhead : x ≤ y := h 0
      have htail := ih (Nat.succ.inj hlen) fun i => h (i + 1)
      rw [List.sum_cons, List.sum_cons]
      cases i with
      | zero =>
        -- Read behind the end, the tail only says that its sum does not fall.
        have hsum := htail xs.length
        rw [List.getD_eq_default _ _ (le_refl _),
          List.getD_eq_default _ _ (Nat.succ.inj hlen).ge, sub_zero] at hsum
        rw [List.getD_cons_zero, List.getD_cons_zero]
        linarith
      | succ i =>
        have hi := htail i
        rw [List.getD_cons_succ, List.getD_cons_succ]
        linarith

/-- Giving nothing changes nothing. -/
theorem Funds.give_zero (f : Funds Rat) (i : Nat) : f.give i 0 = f := by
  rw [give, sub_zero]
  simp only [add_zero]
  exact congrArg (Funds.mk · f.left) (List.modify_id ..)

namespace DeviationProgram

variable {p : DeviationProgram Rat} {f : Funds Rat} {g : DeviationGoal Rat} {floors : List Rat}

/-- A goal that can get no further: its target is reached, or nothing is left, or its variable
is at its upper bound. -/
def Settled (p : DeviationProgram Rat) (f : Funds Rat) (g : DeviationGoal Rat) : Prop :=
  g.target ≤ f.amount g.index ∨ f.left = 0 ∨
    ∃ v, p.vars[g.index]? = some v ∧ v.isBounded = true ∧ f.amount g.index = v.maximum

/-- What serving a goal gives to its variable: no more than is left, than the target asks for and
than the upper bound admits, and so much that the goal is settled. -/
structure Serves (p : DeviationProgram Rat) (f : Funds Rat) (g : DeviationGoal Rat) (x : Rat) :
    Prop where
  nonneg : 0 ≤ x
  le_left : x ≤ f.left
  le_target : 0 < x → f.amount g.index + x ≤ g.target
  le_maximum : ∀ v, p.vars[g.index]? = some v → v.isBounded = true →
    f.amount g.index + x ≤ v.maximum
  settled : p.Settled (f.give g.index x) g

/-- Nothing more is given to a goal that has reached its target. -/
theorem serves_zero {money : Rat} (hsound : f.Sound p.vars 0 money)
    (htarget : g.target ≤ f.amount g.index) : p.Serves f g 0 := by
  have hgive := f.give_zero g.index
  refine ⟨le_refl 0, hsound.left_nonneg, fun h => absurd h (lt_irrefl 0), ?_, ?_⟩
  · intro v hv hbounded
    linarith [hsound.below g.index v hv hbounded]
  · rw [hgive]
    exact .inl htarget

/-- An amount that uses up what the target asks for, the money or the room settles a goal. -/
theorem serves_of {x : Rat} (hi : g.index < f.amounts.length) (hnonneg : 0 ≤ x)
    (hleft : x ≤ f.left) (htarget : x ≤ g.target - f.amount g.index)
    (hroom : ∀ v, p.vars[g.index]? = some v → v.isBounded = true →
      x ≤ v.maximum - f.amount g.index)
    (hend : x = g.target - f.amount g.index ∨ x = f.left ∨ ∃ v, p.vars[g.index]? = some v ∧
      v.isBounded = true ∧ x = v.maximum - f.amount g.index) : p.Serves f g x := by
  refine ⟨hnonneg, hleft, fun _ => by linarith, ?_, ?_⟩
  · intro v hv hbounded
    linarith [hroom v hv hbounded]
  · rw [Settled, Funds.amount_give hi, if_pos rfl]
    rcases hend with h | h | ⟨v, hv, hbounded, h⟩
    · left
      linarith
    · exact .inr (.inl (sub_eq_zero.mpr h.symm))
    · exact .inr (.inr ⟨v, hv, hbounded, by linarith⟩)

/-- The most that target, money and bound admit settles a goal. -/
theorem serves_hold {money : Rat} (hsound : f.Sound p.vars 0 money) {v : Variable Rat}
    (hv : p.vars[g.index]? = some v) (htarget : f.amount g.index < g.target) :
    p.Serves f g
      ((v.headroom (f.amount g.index)).hold (least (g.target - f.amount g.index) f.left)) := by
  have hi : g.index < f.amounts.length := hsound.length ▸ (List.getElem?_eq_some_iff.mp hv).1
  have hmissing := (sub_pos.mpr htarget).le
  have hnonneg := le_min hmissing hsound.left_nonneg
  have hmoney := min_le_right (g.target - f.amount g.index) f.left
  have hreach := min_le_left (g.target - f.amount g.index) f.left
  rw [least_eq_min]
  cases hbounded : v.isBounded with
  | false =>
    have hheadroom : v.headroom (f.amount g.index) = .endless := by
      rw [Variable.headroom, hbounded]
      rfl
    rw [hheadroom, Limit.hold_endless]
    -- No maximum: what is missing or what is left ends the raise.
    refine serves_of hi hnonneg hmoney hreach ?_ ?_
    · intro w hw hwbounded
      cases hv.symm.trans hw
      rw [hbounded] at hwbounded
      cases hwbounded
    · rcases min_choice (g.target - f.amount g.index) f.left with h | h
      · exact .inl h
      · exact .inr (.inl h)
  | true =>
    -- The room is the third thing that can end it.
    have hroom : 0 ≤ v.maximum - f.amount g.index := by
      linarith [hsound.below g.index v hv hbounded]
    have hheadroom : v.headroom (f.amount g.index) = .upTo (v.maximum - f.amount g.index) := by
      rw [Variable.headroom, if_pos hbounded, greatest_eq_max, max_eq_right hroom]
    rw [hheadroom, Limit.hold_upTo]
    have hless := min_le_left (min (g.target - f.amount g.index) f.left)
      (v.maximum - f.amount g.index)
    refine serves_of hi (le_min hnonneg hroom) (hless.trans hmoney) (hless.trans hreach) ?_ ?_
    · intro w hw _
      cases hv.symm.trans hw
      exact min_le_right _ _
    · rcases min_choice (min (g.target - f.amount g.index) f.left)
        (v.maximum - f.amount g.index) with h | h
      · rw [h]
        rcases min_choice (g.target - f.amount g.index) f.left with h | h
        · exact .inl h
        · exact .inr (.inl h)
      · exact .inr (.inr ⟨v, hv, hbounded, h⟩)

/-- Serving a goal that asks for at least its target gives its variable something. -/
theorem serve_eq_give (floors : List Rat) {money : Rat} (hsound : f.Sound p.vars 0 money)
    (hg : g ∈ p.goals) (hside : g.side = .atLeast) :
    ∃ x, p.Serves f g x ∧ p.serve floors f g = f.give g.index x := by
  have hi : g.index < p.vars.length := p.index_lt g hg
  have hv := List.getElem?_eq_getElem hi
  unfold serve
  dsimp only
  split
  next hraise =>
    refine ⟨_, serves_hold hsound hv hraise.2, ?_⟩
    rw [hv, Option.map_some, Option.getD_some]
    split
    next => rfl
    next hzero =>
      have hnone := le_antisymm (not_lt.mp hzero) (serves_hold hsound hv hraise.2).nonneg
      rw [hnone, Funds.give_zero]
  next hreached =>
    rw [if_neg (fun h => h.1 hside)]
    have htarget : g.target ≤ f.amount g.index := by
      refine not_lt.mp fun h => hreached ⟨?_, h⟩
      rw [hside]
      decide
    exact ⟨0, serves_zero hsound htarget, (f.give_zero _).symm⟩

/-- What serving a goal leaves of the invariant. -/
theorem Serves.sound {money x : Rat} (h : p.Serves f g x) (hsound : f.Sound p.vars 0 money)
    (hg : g ∈ p.goals) : (f.give g.index x).Sound p.vars 0 money := by
  refine hsound.give (p.index_lt g hg) h.nonneg h.le_left fun v hv hbounded => ?_
  linarith [h.le_maximum v hv hbounded]

/-- What a goal that asks for at least its target falls short of. -/
theorem deviation_atLeast (hside : g.side = .atLeast) (a : Rat) :
    g.deviation a = max 0 (g.target - a) := by
  rw [DeviationGoal.deviation, hside]
  exact greatest_eq_max _ _

/-- A goal that is settled stays so, with the deviation it has, while others are served. -/
theorem Serves.settled_give {money x : Rat} (h : p.Serves f g x) (hsound : f.Sound p.vars 0 money)
    (hg : g ∈ p.goals) {other : DeviationGoal Rat} (hside : other.side = .atLeast)
    (hsettled : p.Settled f other) : p.Settled (f.give g.index x) other ∧
      other.deviation ((f.give g.index x).amount other.index) =
        other.deviation (f.amount other.index) := by
  have hi : g.index < f.amounts.length := hsound.length ▸ p.index_lt g hg
  -- A raise by nothing changes nothing, and in two of the three ways to be settled it is the only
  -- one.
  have hnone (hx : x = 0) : p.Settled (f.give g.index x) other ∧
      other.deviation ((f.give g.index x).amount other.index) =
        other.deviation (f.amount other.index) := by
    rw [hx, Funds.give_zero]
    exact ⟨hsettled, rfl⟩
  rcases hsettled with hreached | hleft | ⟨v, hv, hbounded, hfull⟩
  -- The other goal is reached, and a raise leaves it reached.
  · have hrises : f.amount other.index ≤ (f.give g.index x).amount other.index := by
      rw [Funds.amount_give hi]
      split
      next heq => linarith [h.nonneg, congrArg f.amount heq]
      next => exact le_refl _
    have hstill := hreached.trans hrises
    refine ⟨.inl hstill, ?_⟩
    rw [deviation_atLeast hside, deviation_atLeast hside, max_eq_left (sub_nonpos.mpr hstill),
      max_eq_left (sub_nonpos.mpr hreached)]
  -- Nothing is left to give.
  · exact hnone (le_antisymm (hleft ▸ h.le_left) h.nonneg)
  -- Its variable is full, so either it is this one or it is not touched.
  · by_cases heq : other.index = g.index
    · rw [heq] at hv hfull
      have hle := h.le_maximum v hv hbounded
      exact hnone (le_antisymm (by linarith) h.nonneg)
    · have hsame : (f.give g.index x).amount other.index = f.amount other.index := by
        rw [Funds.amount_give hi, if_neg heq]
      rw [hsame]
      exact ⟨.inr (.inr ⟨v, hv, hbounded, hsame.trans hfull⟩), rfl⟩

/-- A goal that is served reaches its target, or no allocation that gives every variable as much as
the run so far gives more to its variable. -/
theorem Serves.reaches_or_le {x : Rat} {y : List Rat} (h : p.Serves f g x)
    (hsound : f.Sound p.vars 0 p.income) (hg : g ∈ p.goals) (hy : p.Affords Variable.limit y)
    (hle : ∀ i, f.amount i ≤ y.getD i 0) :
    g.target ≤ f.amount g.index + x ∨ y.getD g.index 0 ≤ f.amount g.index + x := by
  have hi : g.index < f.amounts.length := hsound.length ▸ p.index_lt g hg
  have hamount : (f.give g.index x).amount g.index = f.amount g.index + x := by
    rw [Funds.amount_give hi, if_pos rfl]
  rcases h.settled with hreached | hleft | ⟨v, hv, hbounded, hfull⟩
  · rw [hamount] at hreached
    exact .inl hreached
  · -- whatever is given to this variable is missing nowhere else
    have hleft : f.left = x := sub_eq_zero.mp hleft
    have hmore := getD_sub_le_sum_sub (hsound.length.trans hy.length.symm) hle g.index
    have hbalance := hsound.balance
    have hsum := hy.sum_le
    have hdef : f.amounts.getD g.index 0 = f.amount g.index := rfl
    right
    linarith
  · have hlimit := (hy.bounds hv).2
    rw [Variable.limit, if_pos hbounded] at hlimit
    rw [hamount] at hfull
    exact .inr (hfull ▸ hlimit)

/-- An allocation that gives every variable as much as the run so far has no smaller deviation of
the next goal, and where it has the same one, it gives as much as the run does then. -/
theorem Serves.least {x : Rat} {y : List Rat} (h : p.Serves f g x)
    (hsound : f.Sound p.vars 0 p.income) (hg : g ∈ p.goals) (hside : g.side = .atLeast)
    (hy : p.Affords Variable.limit y) (hle : ∀ i, f.amount i ≤ y.getD i 0) :
    g.deviation ((f.give g.index x).amount g.index) ≤ g.deviation (y.getD g.index 0) ∧
      (g.deviation ((f.give g.index x).amount g.index) = g.deviation (y.getD g.index 0) →
        ∀ i, (f.give g.index x).amount i ≤ y.getD i 0) := by
  have hi : g.index < f.amounts.length := hsound.length ▸ p.index_lt g hg
  have hamount : (f.give g.index x).amount g.index = f.amount g.index + x := by
    rw [Funds.amount_give hi, if_pos rfl]
  -- it is enough to look at the variable of the goal
  have hpointwise (hg : f.amount g.index + x ≤ y.getD g.index 0) (i : Nat) :
      (f.give g.index x).amount i ≤ y.getD i 0 := by
    rw [Funds.amount_give hi]
    split
    next heq => rwa [heq]
    next => exact hle i
  rw [hamount, deviation_atLeast hside, deviation_atLeast hside]
  by_cases hreached : g.target ≤ f.amount g.index + x
  · rw [max_eq_left (sub_nonpos.mpr hreached)]
    refine ⟨le_max_left _ _, fun hsame => hpointwise ?_⟩
    have hreaches : g.target ≤ y.getD g.index 0 := sub_nonpos.mp (max_eq_left_iff.mp hsame.symm)
    rcases h.nonneg.eq_or_lt with hzero | hpos
    · rw [← hzero, add_zero]
      exact hle g.index
    · exact (h.le_target hpos).trans hreaches
  · have hmost := (h.reaches_or_le hsound hg hy hle).resolve_left hreached
    have hshort : 0 ≤ g.target - (f.amount g.index + x) := (sub_pos.mpr (not_le.mp hreached)).le
    have hshorter : 0 ≤ g.target - y.getD g.index 0 := by linarith
    rw [max_eq_right hshort, max_eq_right hshorter]
    exact ⟨by linarith, fun hsame => hpointwise (by linarith)⟩

/-! ## The run -/

/-- Serving goals one after the other keeps the invariant. -/
theorem sound_foldl_serve {money : Rat} {goals : List (DeviationGoal Rat)}
    (hgoals : ∀ g ∈ goals, g ∈ p.goals ∧ g.side = .atLeast) (hsound : f.Sound p.vars 0 money) :
    (goals.foldl (p.serve floors) f).Sound p.vars 0 money := by
  refine List.foldlRecOn goals _ (motive := fun f : Funds Rat => f.Sound p.vars 0 money) hsound ?_
  intro f' hf' g hg
  obtain ⟨hmem, hside⟩ := hgoals g hg
  obtain ⟨x, hx, hserve⟩ := serve_eq_give floors hf' hmem hside
  rw [hserve]
  exact hx.sound hf' hmem

/-- What is settled is not touched by the goals that follow. -/
theorem deviation_foldl_serve (floors : List Rat) {money : Rat} {goals : List (DeviationGoal Rat)}
    (hgoals : ∀ g ∈ goals, g ∈ p.goals ∧ g.side = .atLeast) (hsound : f.Sound p.vars 0 money)
    {other : DeviationGoal Rat} (hside : other.side = .atLeast) (hsettled : p.Settled f other) :
    other.deviation ((goals.foldl (p.serve floors) f).amount other.index) =
      other.deviation (f.amount other.index) := by
  induction goals generalizing f with
  | nil => rfl
  | cons g rest ih =>
    obtain ⟨⟨hmem, hgside⟩, hrest⟩ := List.forall_mem_cons.mp hgoals
    obtain ⟨x, hx, hserve⟩ := serve_eq_give floors hsound hmem hgside
    obtain ⟨hstill, hsame⟩ := hx.settled_give hsound hmem hside hsettled
    rw [List.foldl_cons, hserve, ih hrest (hx.sound hsound hmem) hstill, hsame]

/-- No allocation that gives as much as the run so far has smaller deviations of the goals that
are still to be served. -/
theorem not_lex_foldl_serve {goals : List (DeviationGoal Rat)}
    (hgoals : ∀ g ∈ goals, g ∈ p.goals ∧ g.side = .atLeast) (hsound : f.Sound p.vars 0 p.income)
    {y : List Rat} (hy : p.Affords Variable.limit y) (hle : ∀ i, f.amount i ≤ y.getD i 0) :
    ¬List.Lex (· < ·) (goals.map fun g => g.deviation (y.getD g.index 0))
      (goals.map fun g => g.deviation ((goals.foldl (p.serve floors) f).amount g.index)) := by
  induction goals generalizing f with
  | nil => exact nofun
  | cons g rest ih =>
    obtain ⟨⟨hmem, hside⟩, hrest⟩ := List.forall_mem_cons.mp hgoals
    obtain ⟨x, hx, hserve⟩ := serve_eq_give floors hsound hmem hside
    have hnext := hx.sound hsound hmem
    obtain ⟨hleast, hagain⟩ := hx.least hsound hmem hside hy hle
    have hkept := deviation_foldl_serve floors hrest hnext hside hx.settled
    rw [List.foldl_cons, hserve, List.map_cons, List.map_cons, hkept, List.cons_lex_cons_iff]
    rintro (hless | ⟨hsame, hlex⟩)
    · exact absurd hleast (not_le.mpr hless)
    · exact ih hrest hnext (hagain hsame.symm) hlex

/-- The goals in the order of service: by priority, then by descending weight, then as they
were added. -/
def inOrder (p : DeviationProgram Rat) : List (DeviationGoal Rat) :=
  p.goals.mergeSort (comesFirst (·.priority) (·.weight))

/-- The floors of a tier matter only to goals that lower a variable. -/
theorem serve_floors (hside : g.side = .atLeast) (floors' : List Rat) :
    p.serve floors f g = p.serve floors' f g := by
  have hnot (c : Prop) : ¬(g.side ≠ .atLeast ∧ c) := fun h => h.1 hside
  unfold serve
  simp only [if_neg (hnot _)]

/-- What the run starts from: every variable at its lower bound. -/
def start (p : DeviationProgram Rat) : Funds Rat :=
  ⟨p.vars.map (·.minimum), greatest 0 (p.income - sumOfMinimums p.vars)⟩

/-- What the run ends with. -/
def served (p : DeviationProgram Rat) : Funds Rat := p.inOrder.foldl (p.serve []) p.start

theorem startAtMinimums_eq (hcheck : checkMinimums p.vars p.income = .ok ()) :
    startAtMinimums p.vars p.income = .ok (p.start.amounts, p.start.left) :=
  bind_eq_ok.mpr ⟨(), hcheck, rfl⟩

/-- The start is sound. -/
theorem sound_start (hminimums : sumOfMinimums p.vars ≤ p.income) :
    p.start.Sound p.vars 0 p.income := by
  have hsound := Funds.sound_start le_rfl (startAtMinimums_eq (checkMinimums_of_le hminimums))
  rwa [max_eq_left hminimums] at hsound

/-- No allocation gives a variable less than the run starts with. -/
theorem start_le {upper : Variable Rat → Limit Rat} {y : List Rat} (hy : p.Affords upper y)
    (i : Nat) : p.start.amount i ≤ y.getD i 0 := by
  rw [start, Funds.amount, List.getD_eq_getElem?_getD, List.getElem?_map]
  cases hv : p.vars[i]? with
  | none => exact hy.amount_nonneg i
  | some v => exact (hy.bounds hv).1

/-- Tier by tier, the goals are served in their order. -/
theorem serveTiers_eq_served (hsides : ∀ g ∈ p.goals, g.side = .atLeast) :
    p.serveTiers p.start (tiers (·.priority) p.goals) = p.served := by
  rw [served, inOrder, ← flatMap_tiers, List.foldl_flatMap]
  refine List.foldl_ext _ _ _ fun f tier htier => ?_
  refine List.foldl_ext _ _ _ fun f' g hg => serve_floors (hsides g ?_) []
  exact mem_of_mem_tiers htier ((byDescending_perm _ _).mem_iff.mp hg)

/-- The run serves the goals one after the other, by tier and weight. -/
theorem runPreemptive_eq (hsides : ∀ g ∈ p.goals, g.side = .atLeast)
    (hminimums : sumOfMinimums p.vars ≤ p.income) : p.runPreemptive = .ok p.served := by
  have hstart := startAtMinimums_eq (checkMinimums_of_le hminimums)
  exact bind_eq_ok.mpr ⟨_, hstart, congrArg Except.ok (serveTiers_eq_served hsides)⟩

/-- The deviations of all goals with an allocation, in the order of service. -/
def deviationsInOrder (p : DeviationProgram Rat) (x : List Rat) : List Rat :=
  p.inOrder.map fun g => g.deviation (x.getD g.index 0)

/-- Goals that ask for at least their targets, served in strict order, get an allocation that
the income affords and whose deviations no other such allocation undercuts: at the first goal
in order of service where it differs, the other one has the larger deviation. -/
theorem solvePreemptive_optimal (hids : (p.vars.map (·.id)).Nodup)
    (hsides : ∀ g ∈ p.goals, g.side = .atLeast) (hminimums : sumOfMinimums p.vars ≤ p.income) :
    ∃ r x, p.solvePreemptive = .ok r ∧ r.variableValues.entries = (p.vars.map (·.id)).zip x ∧
      p.Affords Variable.limit x ∧ ∀ y, p.Affords Variable.limit y →
        ¬List.Lex (· < ·) (p.deviationsInOrder y) (p.deviationsInOrder x) := by
  have hgoals : ∀ g ∈ p.inOrder, g ∈ p.goals ∧ g.side = .atLeast := by
    intro g hg
    have hmem := (List.mergeSort_perm _ _).mem_iff.mp hg
    exact ⟨hmem, hsides g hmem⟩
  have hsound : p.served.Sound p.vars 0 p.income :=
    sound_foldl_serve hgoals (sound_start hminimums)
  obtain ⟨r, hr, hvalues⟩ := exists_summarize hsound.length .optimal p.goals.length
  refine ⟨r, p.served.amounts, ?_, ?_, hsound.affords, fun y hy => ?_⟩
  · exact bind_eq_ok.mpr ⟨_, runPreemptive_eq hsides hminimums, hr⟩
  · rw [hvalues, GoalProgram.entries_valuesById hids hsound.length]
  · exact not_lex_foldl_serve hgoals (sound_start hminimums) hy (start_le hy)

/-- Three goals on two variables: a need, then a feast and fun, of which fun counts more. -/
def threeGoals : DeviationProgram Rat where
  income := 100
  vars := [⟨"food", "food", .category, 20, 90, by decide, by decide⟩,
    ⟨"fun", "fun", .category, 0, 0, by decide, by decide⟩]
  goals := [⟨"feast", 0, 80, .atLeast, 2, 1, ""⟩, ⟨"eat", 0, 60, .atLeast, 1, 1, ""⟩,
    ⟨"play", 1, 30, .atLeast, 2, 2, ""⟩]
  index_lt := by decide

/-- Three goals on two variables, and more asked for than there is. -/
theorem solvePreemptive_optimal_threeGoals :
    (threeGoals.vars.map (·.id)).Nodup ∧ (∀ g ∈ threeGoals.goals, g.side = .atLeast) ∧
      sumOfMinimums threeGoals.vars ≤ threeGoals.income ∧
      ∃ r x, threeGoals.solvePreemptive = .ok r ∧
        r.variableValues.entries = ["food", "fun"].zip x ∧
        threeGoals.Affords Variable.limit x ∧ ∀ y, threeGoals.Affords Variable.limit y →
          ¬List.Lex (· < ·) (threeGoals.deviationsInOrder y) (threeGoals.deviationsInOrder x) := by
  have hids : (threeGoals.vars.map (·.id)).Nodup := by decide
  have hsides : ∀ g ∈ threeGoals.goals, g.side = .atLeast := by decide
  have hminimums : sumOfMinimums threeGoals.vars ≤ threeGoals.income := by decide +kernel
  exact ⟨hids, hsides, hminimums, solvePreemptive_optimal hids hsides hminimums⟩

/-- What is left after the need and the fun goes to the feast, which stays ten short. -/
example : threeGoals.deviationsInOrder threeGoals.served.amounts = [0, 0, 10] := by
  cbv

end DeviationProgram

end GoalBudget
