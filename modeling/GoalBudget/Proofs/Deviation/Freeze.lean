import GoalBudget.Proofs.Deviation.Preemptive
import GoalBudget.Proofs.Deviation.Tiers
import GoalBudget.Proofs.Strategy.Affordable
import Mathlib.Algebra.Module.Submodule.Lattice
import Mathlib.Data.List.Permutation

/-!
# What later tiers leave of a served tier

The amounts at the end of a tier are floors for the tiers behind it, so no later goal takes anything
away from a variable. There is no ceiling: a later goal that asks for more raises a variable that an
earlier one has capped. `Held` says both, of the state after a priority and any later state of the
run.

So a goal that asks for at least its target never loses to a less important one, and a goal that
caps its variable loses only to less important goals on the same variable that ask for more, by no
more than the difference of the targets (`Held.deviation`). Main result: `deviation_held`, and
`cap_exceeded` for a cap that is lost.

`Held` is kept by every goal served (`Held.serve`), whichever branch it takes: the one that raises
looks at the target, the one that lowers looks at the floor. That the two branches do not look at
the same is what the result is about.
-/

namespace GoalBudget.DeviationProgram

variable {p : DeviationProgram Rat} {later : List (DeviationGoal Rat)} {money : Rat}
  {f f' : Funds Rat} {floors : List Rat} {g : DeviationGoal Rat}

/-- How amounts stand to earlier ones after some goals: nothing is taken away, and what is more
one of the goals has asked for. -/
structure Held (later : List (DeviationGoal Rat)) (f f' : Funds Rat) : Prop where
  above : ∀ i, f.amount i ≤ f'.amount i
  asked : ∀ i, f'.amount i = f.amount i ∨
    ∃ h ∈ later, h.index = i ∧ h.side ≠ .atMost ∧ f'.amount i ≤ h.target

theorem Held.refl (later : List (DeviationGoal Rat)) (f : Funds Rat) : Held later f f :=
  ⟨fun _ => le_rfl, fun _ => .inl rfl⟩

/-- A goal served with floors that are not below the earlier amounts. A raise ends at the goal's
target; where nothing was added yet, the floor leaves nothing to take away. -/
theorem Held.serve (h : Held later f f') (hi : g.index < f'.amounts.length) (hg : g ∈ later)
    (hfloors : ∀ i, f.amount i ≤ floors.getD i 0) : Held later f (p.serve floors f' g) := by
  rcases p.serve_cases floors f' g with hserve | ⟨x, hx, hserve⟩ | ⟨x, hx, hserve⟩
  · rwa [hserve]
  -- A raise: the amount is asked for by the goal that raised it.
  · rw [hserve]
    constructor
    · intro i
      rw [Funds.amount_give hi]
      split
      next hsame =>
        have habove := h.above i
        rw [hsame] at habove ⊢
        linarith [hx.pos]
      next => exact h.above i
    · intro i
      rw [Funds.amount_give hi]
      split
      next hsame => exact .inr ⟨g, hg, hsame.symm, hx.side, hx.le_target⟩
      next => exact h.asked i
  -- A fall ends at the floor, and what was asked for before is asked for still.
  · have hfloor : f.amount g.index ≤ f'.amount g.index - x :=
      (hfloors g.index).trans hx.floor_le
    rw [hserve]
    constructor
    · intro i
      rw [Funds.amount_give hi, ← sub_eq_add_neg]
      split
      next hsame => exact hsame ▸ hfloor
      next => exact h.above i
    · intro i
      rw [Funds.amount_give hi, ← sub_eq_add_neg]
      split
      next hsame =>
        rcases h.asked i with hkept | ⟨other, hother, hindex, hside, hle⟩
        · rw [hsame] at hkept
          linarith [hx.pos]
        · refine .inr ⟨other, hother, hindex, hside, ?_⟩
          rw [hsame] at hle
          linarith [hx.pos]
      next => exact h.asked i

/-- Goals served one after the other, with the amounts before them as floors. -/
theorem Held.foldl_serve {goals : List (DeviationGoal Rat)} (h : Held later f f')
    (hsound : f'.Sound p.vars 0 money) (hgoals : ∀ g ∈ goals, g ∈ p.goals ∧ g ∈ later) :
    Held later f (goals.foldl (p.serve f'.amounts) f') ∧
      (goals.foldl (p.serve f'.amounts) f').Sound p.vars 0 money := by
  refine List.foldlRecOn goals _
    (motive := fun s : Funds Rat => Held later f s ∧ s.Sound p.vars 0 money) ⟨h, hsound⟩ ?_
  rintro s ⟨hheld, hs⟩ g hg
  obtain ⟨hmem, hlater⟩ := hgoals g hg
  exact ⟨hheld.serve (hs.length ▸ p.index_lt g hmem) hlater h.above,
    sound_serve hs hmem hsound.above⟩

/-- A tier keeps what is held. -/
theorem Held.serveTier {tier : List (DeviationGoal Rat)} (h : Held later f f')
    (hsound : f'.Sound p.vars 0 money) (htier : ∀ g ∈ tier, g ∈ p.goals ∧ g ∈ later) :
    Held later f (p.serveTier f' tier) ∧ (p.serveTier f' tier).Sound p.vars 0 money :=
  h.foldl_serve hsound fun g hg => htier g ((byDescending_perm _ _).mem_iff.mp hg)

theorem Held.serveTiers {ts : List (Int × List (DeviationGoal Rat))} (h : Held later f f')
    (hsound : f'.Sound p.vars 0 money)
    (hts : ∀ tier ∈ ts, ∀ g ∈ tier.2, g ∈ p.goals ∧ g ∈ later) :
    Held later f (p.serveTiers f' ts) ∧ (p.serveTiers f' ts).Sound p.vars 0 money := by
  refine List.foldlRecOn ts _
    (motive := fun s : Funds Rat => Held later f s ∧ s.Sound p.vars 0 money) ⟨h, hsound⟩ ?_
  rintro s ⟨hheld, hs⟩ tier htier
  exact hheld.serveTier hs (hts tier htier)

/-! ## Deviations -/

/-- More never deviates more from a target that is a lower bound. -/
theorem deviation_le_of_atLeast {a b : Rat} (hside : g.side = .atLeast) (hab : a ≤ b) :
    g.deviation b ≤ g.deviation a := by
  rw [DeviationGoal.deviation, DeviationGoal.deviation, hside, Side.deviation, Side.deviation,
    greatest_eq_max, greatest_eq_max]
  exact max_le_max le_rfl (sub_le_sub_left hab _)

/-- What goes beyond the target of a cap is its deviation. -/
theorem deviation_of_target_le {b : Rat} (hside : g.side ≠ .atLeast) (hb : g.target ≤ b) :
    g.deviation b = b - g.target := by
  rw [DeviationGoal.deviation]
  cases hcap : g.side with
  | atLeast => exact absurd hcap hside
  | atMost =>
    rw [Side.deviation, greatest_eq_max]
    exact max_eq_right (sub_nonneg.mpr hb)
  | exactly =>
    rw [Side.deviation, magnitude_eq_abs]
    exact abs_of_nonneg (sub_nonneg.mpr hb)

/-- An amount that comes closer to the target from below deviates less. -/
theorem deviation_le_of_le_target {a b : Rat} (hab : a ≤ b) (hb : b ≤ g.target) :
    g.deviation b ≤ g.deviation a := by
  cases hside : g.side with
  | atLeast => exact deviation_le_of_atLeast hside hab
  | atMost =>
    rw [DeviationGoal.deviation, DeviationGoal.deviation, hside, Side.deviation, Side.deviation,
      greatest_eq_max, greatest_eq_max, max_eq_left (sub_nonpos.mpr hb)]
    exact le_max_left _ _
  | exactly =>
    rw [DeviationGoal.deviation, DeviationGoal.deviation, hside, Side.deviation, Side.deviation,
      magnitude_eq_abs, magnitude_eq_abs, abs_of_nonpos (sub_nonpos.mpr hb),
      abs_of_nonpos (sub_nonpos.mpr (hab.trans hb))]
    exact neg_le_neg (sub_le_sub_right hab _)

/-- What later goals leave of the deviation of a goal: it does not grow, or the goal is a cap
and another one on the same variable asks for more. -/
theorem Held.deviation (h : Held later f f') (g : DeviationGoal Rat) :
    g.deviation (f'.amount g.index) ≤ g.deviation (f.amount g.index) ∨
      g.side ≠ .atLeast ∧ ∃ other ∈ later, other.index = g.index ∧ other.side ≠ .atMost ∧
        g.target < other.target ∧
        g.deviation (f'.amount g.index) ≤ other.target - g.target := by
  have habove := h.above g.index
  by_cases hside : g.side = .atLeast
  · exact .inl (deviation_le_of_atLeast hside habove)
  · rcases h.asked g.index with hsame | ⟨other, hother, hindex, hasks, hle⟩
    · exact .inl (by rw [hsame])
    · rcases le_or_gt (f'.amount g.index) g.target with hbelow | hbeyond
      · exact .inl (deviation_le_of_le_target habove hbelow)
      · refine .inr ⟨hside, other, hother, hindex, hasks, hbeyond.trans_le hle, ?_⟩
        rw [deviation_of_target_le hside hbeyond.le]
        linarith

/-! ## The run -/

/-- The goals behind one priority and up to another. -/
def goalsBetween (p : DeviationProgram Rat) (k m : Int) : List (DeviationGoal Rat) :=
  p.goals.filter fun g => k < g.priority ∧ g.priority ≤ m

/-- Where the run stands after every priority, its amounts are within bounds. -/
theorem exists_servedUpTo (hcheck : checkMinimums p.vars p.income = .ok ()) (k : Int) :
    ∃ f, p.servedUpTo k = .ok f ∧
      f.Sound p.vars 0 (max p.income (sumOfMinimums p.vars)) := by
  obtain ⟨start, hstart, hsound⟩ := Funds.exists_start (le_refl (0 : Rat)) hcheck
  refine ⟨_, bind_eq_ok.mpr ⟨start, hstart, rfl⟩, sound_serveTiers hsound fun tier htier g hg => ?_⟩
  exact mem_of_mem_tiers ((List.takeWhile_sublist _).mem htier) hg

/-- Nothing that the tiers up to a priority have given is taken away by the tiers behind it, and
what these add some of their goals asks for. So the deviation of a goal of a served tier does
not grow, unless the goal caps its variable and a less important goal asks for more of it: then
the cap is exceeded by no more than that. -/
theorem deviation_held (hcheck : checkMinimums p.vars p.income = .ok ()) {k m : Int}
    (hkm : k ≤ m) : ∃ f f', p.servedUpTo k = .ok f ∧ p.servedUpTo m = .ok f' ∧
      ((∀ g ∈ p.goals, g.priority ≤ m) → p.runPreemptive = .ok f') ∧
      Held (p.goalsBetween k m) f f' ∧
      ∀ g ∈ p.goals, g.priority ≤ k →
        g.deviation (f'.amount g.index) ≤ g.deviation (f.amount g.index) ∨
          g.side ≠ .atLeast ∧ ∃ other ∈ p.goalsBetween k m, other.index = g.index ∧
            other.side ≠ .atMost ∧ g.target < other.target ∧
            g.deviation (f'.amount g.index) ≤ other.target - g.target := by
  obtain ⟨f, hf, hsound⟩ := exists_servedUpTo hcheck k
  have hheld : Held (p.goalsBetween k m) f (p.serveTiers f
      (tiersBeyond (·.priority) k (p.goals.filter (·.priority ≤ m)))) := by
    refine ((Held.refl _ f).serveTiers hsound fun tier htier g hg => ?_).1
    obtain ⟨hmem, hbeyond⟩ := lt_priority_of_mem_tiersBeyond htier hg
    obtain ⟨hgoal, hupTo⟩ := List.mem_filter.mp hmem
    exact ⟨hgoal, List.mem_filter.mpr ⟨hgoal, by simpa using ⟨hbeyond, of_decide_eq_true hupTo⟩⟩⟩
  have hrest : p.servedUpTo m = .ok (p.serveTiers f
      (tiersBeyond (·.priority) k (p.goals.filter (·.priority ≤ m)))) := by
    rw [p.servedUpTo_eq_bind hkm]
    exact bind_of_eq_ok hf
  refine ⟨f, _, hf, hrest, fun hall => ?_, hheld, fun g _ _ => hheld.deviation g⟩
  rw [← hrest, p.servedUpTo_eq_runPreemptive hall]

/-- An amount that is capped first and asked to grow afterwards. -/
def cappedGrowth : DeviationProgram Rat where
  income := 100
  vars := [⟨"x", "x", .category, 4, 95, by decide, by decide⟩]
  goals := [⟨"cap", 0, 10, .atMost, 1, 1, ""⟩, ⟨"grow", 0, 50, .atLeast, 2, 1, ""⟩]
  index_lt := by decide

/-- The lower bounds fit into the income. -/
theorem checkMinimums_cappedGrowth :
    checkMinimums cappedGrowth.vars cappedGrowth.income = .ok () :=
  checkMinimums_of_le (by decide +kernel)

/-- Growing takes nothing from the variable, and the cap is exceeded by no more than 40. -/
theorem deviation_held_cappedGrowth :
    checkMinimums cappedGrowth.vars cappedGrowth.income = .ok () ∧ (1 : Int) ≤ 2 ∧
      ∃ f f', cappedGrowth.servedUpTo 1 = .ok f ∧ cappedGrowth.runPreemptive = .ok f' ∧
        f.amount 0 ≤ f'.amount 0 := by
  obtain ⟨f, f', hf, _, hrun, hheld, _⟩ :=
    deviation_held checkMinimums_cappedGrowth (show (1 : Int) ≤ 2 by decide)
  exact ⟨checkMinimums_cappedGrowth, by decide, f, f', hf, hrun (by decide), hheld.above 0⟩

/-- The cap is kept by the tier that it is in, and exceeded by the tier behind that. -/
theorem cap_exceeded : ∃ f f', cappedGrowth.servedUpTo 1 = .ok f ∧
    cappedGrowth.runPreemptive = .ok f' ∧ ∃ cap ∈ cappedGrowth.goals, cap.priority = 1 ∧
      cap.deviation (f.amount cap.index) = 0 ∧ cap.deviation (f'.amount cap.index) = 40 := by
  have hfirst : cappedGrowth.servedUpTo 1 = .ok ⟨[4], 96⟩ := by cbv
  have hrun : cappedGrowth.runPreemptive = .ok ⟨[50], 50⟩ := by cbv
  refine ⟨_, _, hfirst, hrun, ⟨"cap", 0, 10, .atMost, 1, 1, ""⟩, List.mem_cons_self .., rfl, ?_, ?_⟩
  · decide +kernel
  · decide +kernel

end GoalBudget.DeviationProgram
