import GoalBudget.Proofs.Deviation.Freeze
import GoalBudget.Proofs.Deviation.Lexicographic
import GoalBudget.Proofs.Deviation.Outcome

/-!
# Serving goals with more money

After every single goal the run is within its bounds, and no variable has less than at the end of an
earlier tier (`held_afterGoals`).

Where all goals ask for at least their target, a run with more money is never worse off. Until the
poorer run has nothing left, both give the same to every goal; from then on it gives nothing any
more, and the richer one can only be ahead. `Behind` says this of the two states. A goal served
keeps it (`Behind.give`): where the richer run gives more, neither target nor upper bound has held
the poorer one back, so that it has spent what it had left.

That the poorer run has no more of anything would not be kept by itself, as it could catch up and go
ahead on some variable. What keeps it behind is that it has the same amounts as the richer one, or
nothing left. Both runs keep to their bounds all along, which is carried with it (`Chases`).

Main result: `feasible_and_monotone`.
-/

namespace GoalBudget.DeviationProgram

variable {p q : DeviationProgram Rat} {money money' : Rat} {f f' : Funds Rat}
  {floors floors' : List Rat} {g : DeviationGoal Rat}

/-! ## Every state of a run -/

/-- Where the run stands after some tiers and some goals of the next one. -/
def afterGoals (p : DeviationProgram Rat) (served : List (Int × List (DeviationGoal Rat)))
    (done : List (DeviationGoal Rat)) : Funds Rat :=
  done.foldl (p.serve (p.serveTiers p.start served).amounts) (p.serveTiers p.start served)

/-- The run serves all tiers from its start. -/
theorem runPreemptive_of_check (h : checkMinimums p.vars p.income = .ok ()) :
    p.runPreemptive = .ok (p.serveTiers p.start (tiers (·.priority) p.goals)) :=
  bind_eq_ok.mpr ⟨_, startAtMinimums_eq h, rfl⟩

/-- The state after some goals is within its bounds, and has taken nothing from what an earlier
tier has ended with. -/
theorem held_afterGoals (h : checkMinimums p.vars p.income = .ok ())
    {earlier served rest : List (Int × List (DeviationGoal Rat))}
    {tier : Int × List (DeviationGoal Rat)} {done : List (DeviationGoal Rat)}
    (htiers : tiers (·.priority) p.goals = served ++ tier :: rest)
    (hdone : done <+: byDescending (·.weight) tier.2) (hearlier : earlier <+: served) :
    Held p.goals (p.serveTiers p.start earlier) (p.afterGoals served done) ∧
      (p.afterGoals served done).Sound p.vars 0 (max p.income (sumOfMinimums p.vars)) := by
  obtain ⟨between, rfl⟩ := hearlier
  have hgoals (t : Int × List (DeviationGoal Rat)) (ht : t ∈ earlier ++ between ++ tier :: rest)
      (g : DeviationGoal Rat) (hg : g ∈ t.2) : g ∈ p.goals ∧ g ∈ p.goals :=
    and_self_iff.mpr (mem_of_mem_tiers (htiers ▸ ht) hg)
  have hstart := Funds.sound_start le_rfl (startAtMinimums_eq h)
  obtain ⟨_, hearlier⟩ := (Held.refl p.goals p.start).serveTiers hstart fun t ht =>
    hgoals t (List.mem_append_left _ (List.mem_append_left between ht))
  obtain ⟨hheld, hserved⟩ := (Held.refl p.goals _).serveTiers hearlier fun t ht =>
    hgoals t (List.mem_append_left _ (List.mem_append_right earlier ht))
  rw [serveTiers, serveTiers, ← List.foldl_append] at hheld hserved
  refine hheld.foldl_serve hserved fun g hg => ?_
  refine hgoals tier (List.mem_append_right _ (List.mem_cons_self ..)) g ?_
  exact (byDescending_perm _ _).mem_iff.mp (hdone.subset hg)

/-! ## Two incomes -/

/-- How the amounts and what is left are with less money and with more: the same amounts, until
there is nothing left of the less. -/
structure Behind (f f' : Funds Rat) : Prop where
  le_amount : ∀ i, f.amount i ≤ f'.amount i
  le_left : f.left ≤ f'.left
  same_or_spent : (∀ i, f.amount i = f'.amount i) ∨ f.left = 0

/-- More is given to a goal only where money is what held the other run back. -/
theorem Serves.eq_left_of_lt {x y : Rat} (hi : g.index < f.amounts.length)
    (hx : p.Serves f g x) (hy : p.Serves f' g y) (hsame : f.amount g.index = f'.amount g.index)
    (hlt : x < y) : x = f.left := by
  have htarget := hy.le_target (hx.nonneg.trans_lt hlt)
  have hsettled := hx.settled
  rw [Settled, Funds.amount_give hi, if_pos rfl, hsame] at hsettled
  rcases hsettled with hreached | hleft | ⟨v, hv, hbounded, hfull⟩
  · linarith
  · exact (sub_eq_zero.mp hleft).symm
  · have hmaximum := hy.le_maximum v hv hbounded
    linarith

/-- A goal served in both runs. -/
theorem Behind.give {x y : Rat} (h : Behind f f') (hi : g.index < f.amounts.length)
    (hi' : g.index < f'.amounts.length) (hx : p.Serves f g x) (hy : p.Serves f' g y) :
    Behind (f.give g.index x) (f'.give g.index y) := by
  have hxleft := hx.le_left
  have hyleft := hy.le_left
  have hahead (hxy : x ≤ y) (i : Nat) :
      (f.give g.index x).amount i ≤ (f'.give g.index y).amount i := by
    have hle := h.le_amount g.index
    rw [Funds.amount_give hi, Funds.amount_give hi']
    split
    next => linarith
    next => exact h.le_amount i
  rcases h.same_or_spent with hsame | hspent
  · have hindex := hsame g.index
    rcases lt_trichotomy x y with hlt | heq | hgt
    · have hall := hx.eq_left_of_lt hi hy hindex hlt
      have hnone : (f.give g.index x).left = 0 := sub_eq_zero.mpr hall.symm
      refine ⟨hahead hlt.le, ?_, .inr hnone⟩
      rw [hnone]
      exact sub_nonneg.mpr hyleft
    · refine ⟨hahead heq.le, ?_, .inl fun i => ?_⟩
      · rw [heq]
        exact sub_le_sub_right h.le_left y
      · rw [Funds.amount_give hi, Funds.amount_give hi', heq, hindex, hsame i]
    · -- the richer run cannot have been held back by money
      have hall := hy.eq_left_of_lt hi' hx hindex.symm hgt
      have hle := h.le_left
      linarith
  · have hnothing : x = 0 := le_antisymm (hspent ▸ hxleft) hx.nonneg
    refine ⟨hahead (hnothing ▸ hy.nonneg), ?_, .inr ?_⟩
    · rw [hnothing, Funds.give_zero, hspent]
      exact sub_nonneg.mpr hyleft
    · rw [hnothing, Funds.give_zero, hspent]

/-- Both runs keep their bounds, and the one with less money stays behind. -/
structure Chases (p : DeviationProgram Rat) (money money' : Rat) (f f' : Funds Rat) : Prop
    extends Behind f f' where
  sound : f.Sound p.vars 0 money
  sound' : f'.Sound p.vars 0 money'

/-- A goal served keeps the poorer run behind. -/
theorem Chases.serve (h : p.Chases money money' f f') (hg : g ∈ p.goals)
    (hside : g.side = .atLeast) :
    p.Chases money money' (p.serve floors f g) (p.serve floors' f' g) := by
  obtain ⟨x, hx, hserve⟩ := serve_eq_give floors h.sound hg hside
  obtain ⟨y, hy, hserve'⟩ := serve_eq_give floors' h.sound' hg hside
  have hi : g.index < p.vars.length := p.index_lt g hg
  rw [hserve, hserve']
  exact ⟨h.toBehind.give (h.sound.length ▸ hi) (h.sound'.length ▸ hi) hx hy,
    hx.sound h.sound hg, hy.sound h.sound' hg⟩

/-- By induction on the goals. The floors of the two runs differ, which does not matter to goals
that never lower a variable. -/
theorem Chases.foldl_serve {goals : List (DeviationGoal Rat)} (h : p.Chases money money' f f')
    (hgoals : ∀ g ∈ goals, g ∈ p.goals ∧ g.side = .atLeast) :
    p.Chases money money' (goals.foldl (p.serve floors) f)
      (goals.foldl (p.serve floors') f') := by
  induction goals generalizing f f' with
  | nil => exact h
  | cons g rest ih =>
    obtain ⟨⟨hmem, hside⟩, hrest⟩ := List.forall_mem_cons.mp hgoals
    exact ih (h.serve hmem hside) hrest

theorem Chases.serveTiers {ts : List (Int × List (DeviationGoal Rat))}
    (h : p.Chases money money' f f')
    (hts : ∀ tier ∈ ts, ∀ g ∈ tier.2, g ∈ p.goals ∧ g.side = .atLeast) :
    p.Chases money money' (p.serveTiers f ts) (p.serveTiers f' ts) := by
  induction ts generalizing f f' with
  | nil => exact h
  | cons tier rest ih =>
    obtain ⟨htier, hrest⟩ := List.forall_mem_cons.mp hts
    refine ih (h.foldl_serve fun g hg => htier g ?_) hrest
    exact (byDescending_perm _ _).mem_iff.mp hg

/-- With more income there is more left to start with. -/
theorem chases_start (hvars : q.vars = p.vars) (hincome : p.income ≤ q.income)
    (h : checkMinimums p.vars p.income = .ok ()) (h' : checkMinimums q.vars q.income = .ok ()) :
    p.Chases (max p.income (sumOfMinimums p.vars)) (max q.income (sumOfMinimums q.vars))
      p.start q.start := by
  have hsound := Funds.sound_start le_rfl (startAtMinimums_eq h)
  have hsound' := Funds.sound_start le_rfl (startAtMinimums_eq h')
  have hsame : q.start.amounts = p.start.amounts := by
    rw [start, start, hvars]
  refine ⟨⟨fun i => ?_, ?_, .inl fun i => ?_⟩, hsound, hvars ▸ hsound'⟩
  · rw [Funds.amount, Funds.amount, hsame]
  · show greatest 0 (p.income - sumOfMinimums p.vars) ≤ greatest 0 (q.income - sumOfMinimums q.vars)
    rw [greatest_eq_max, greatest_eq_max, hvars]
    exact max_le_max le_rfl (sub_le_sub_right hincome _)
  · rw [Funds.amount, Funds.amount, hsame]

/-! ## The result -/

/-- The state after the last tier. -/
def last (p : DeviationProgram Rat) : Funds Rat :=
  p.serveTiers p.start (tiers (·.priority) p.goals)

/-- What serving the goals results in. -/
theorem solvePreemptive_spec {r : DeviationResult Rat} (h : p.solvePreemptive = .ok r) :
    p.runPreemptive = .ok p.last ∧ r.variableValues = p.valuesById p.last.amounts ∧
      r.isFeasible = true := by
  have hcheck := checkMinimums_of_solvePreemptive h
  have hrun : p.runPreemptive = .ok p.last := runPreemptive_of_check hcheck
  have hsound := sound_runPreemptive hrun
  obtain ⟨f, hf, hsummary⟩ := bind_eq_ok.mp h
  cases hrun.symm.trans hf
  obtain ⟨_, _, hr⟩ := bind_eq_ok.mp hsummary
  cases hr
  exact ⟨hrun, rfl, hsound.nearlyFeasible (max_income_le_of_checkMinimums hcheck)⟩

/-- A run that has a result is within bounds after every goal, with what is left not negative,
and no variable has less than at the end of an earlier tier; the result is feasible. Where all
goals ask for at least their target, a run with more income that has a result gives every
variable at least as much and has at least as much left. -/
theorem feasible_and_monotone {r : DeviationResult Rat} (h : p.solvePreemptive = .ok r) :
    (p.runPreemptive = .ok p.last ∧ r.variableValues = p.valuesById p.last.amounts ∧
      r.isFeasible = true) ∧
    (∀ served tier rest, tiers (·.priority) p.goals = served ++ tier :: rest →
      ∀ done, done <+: byDescending (·.weight) tier.2 →
        (p.afterGoals served done).Sound p.vars 0 (max p.income (sumOfMinimums p.vars)) ∧
        ∀ earlier, earlier <+: served →
          ∀ i, (p.serveTiers p.start earlier).amount i ≤ (p.afterGoals served done).amount i) ∧
    ∀ (q : DeviationProgram Rat) (r' : DeviationResult Rat), q.vars = p.vars →
      q.goals = p.goals → p.income ≤ q.income → (∀ g ∈ p.goals, g.side = .atLeast) →
      q.solvePreemptive = .ok r' →
        q.runPreemptive = .ok q.last ∧ r'.variableValues = q.valuesById q.last.amounts ∧
          (∀ i, p.last.amount i ≤ q.last.amount i) ∧ p.last.left ≤ q.last.left := by
  have hcheck := checkMinimums_of_solvePreemptive h
  refine ⟨solvePreemptive_spec h, ?_, ?_⟩
  · intro served tier rest htiers done hdone
    refine ⟨(held_afterGoals hcheck htiers hdone List.prefix_rfl).2, fun earlier hearlier => ?_⟩
    exact (held_afterGoals hcheck htiers hdone hearlier).1.above
  · intro q r' hvars hgoals hincome hsides h'
    obtain ⟨hrun', hvalues', _⟩ := solvePreemptive_spec h'
    have hstart := chases_start hvars hincome hcheck (checkMinimums_of_solvePreemptive h')
    have htiers : ∀ tier ∈ tiers (·.priority) p.goals, ∀ g ∈ tier.2,
        g ∈ p.goals ∧ g.side = .atLeast := by
      intro tier htier g hg
      have hmem : g ∈ p.goals := mem_of_mem_tiers htier hg
      exact ⟨hmem, hsides g hmem⟩
    have hchases := hstart.serveTiers htiers
    have hlast : q.last = p.serveTiers q.start (tiers (·.priority) p.goals) := by
      rw [last, hgoals, serveTiers_congr hvars]
    rw [← hlast] at hchases
    exact ⟨hrun', hvalues', hchases.le_amount, hchases.le_left⟩

/-- The three goals with more income. -/
def richThreeGoals : DeviationProgram Rat := threeGoals.withIncome 130

/-- With a hundred the feast stays ten short, and with thirty more it is had with twenty left. -/
theorem feasible_and_monotone_threeGoals : ∃ r r', threeGoals.solvePreemptive = .ok r ∧
    richThreeGoals.solvePreemptive = .ok r' ∧ r.isFeasible = true ∧
      threeGoals.last = ⟨[70, 30], 0⟩ ∧ richThreeGoals.last = ⟨[80, 30], 20⟩ ∧
      (∀ i, threeGoals.last.amount i ≤ richThreeGoals.last.amount i) ∧
      threeGoals.last.left ≤ richThreeGoals.last.left := by
  obtain ⟨r, hr⟩ := (solvePreemptive_decided (p := threeGoals)).result
    (checkMinimums_of_le (by decide +kernel))
  obtain ⟨r', hr'⟩ := (solvePreemptive_decided (p := richThreeGoals)).result
    (checkMinimums_of_le (by decide +kernel))
  obtain ⟨⟨_, _, hfeasible⟩, _, hmonotone⟩ := feasible_and_monotone hr
  obtain ⟨_, _, hamounts, hleft⟩ :=
    hmonotone richThreeGoals r' rfl rfl (by decide +kernel) (by decide) hr'
  exact ⟨r, r', hr, hr', hfeasible, by cbv, by cbv, hamounts, hleft⟩

end GoalBudget.DeviationProgram
