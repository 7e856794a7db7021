import GoalBudget.Proofs.Deviation.Tiers
import GoalBudget.Proofs.Fuzzy.Greedy

/-!
# Serving goals in strict order stays within bounds

A goal served moves its variable within the variable's bounds: up by no more than the headroom and
what is left (`Raises`), down no further than the floor, which is not below the lower bound
(`Lowers`). It does one of the two or nothing (`serve_cases`), and later proofs take the three cases
from there without unfolding the definition. So `Funds.Sound` holds through all tiers:
`exists_runPreemptive`.

Lowering a variable gives the money back, so what is left can grow as well as shrink. What stays is
the balance of both.
-/

namespace GoalBudget.DeviationProgram

variable {p : DeviationProgram Rat} {money : Rat} {f : Funds Rat} {floors : List Rat}

/-- How far a goal served may raise its variable: to its target, as far as the money goes and
the upper bound admits. -/
structure Raises (p : DeviationProgram Rat) (f : Funds Rat) (g : DeviationGoal Rat) (x : Rat) :
    Prop where
  side : g.side ≠ .atMost
  pos : 0 < x
  le_left : x ≤ f.left
  le_room : ∀ v, p.vars[g.index]? = some v → v.isBounded = true →
    x ≤ max 0 (v.maximum - f.amount g.index)
  le_target : f.amount g.index + x ≤ g.target

/-- How far a goal served may lower its variable: to its target, and not below the floor. -/
structure Lowers (floors : List Rat) (f : Funds Rat) (g : DeviationGoal Rat) (x : Rat) :
    Prop where
  side : g.side ≠ .atLeast
  pos : 0 < x
  target_le : g.target ≤ f.amount g.index - x
  floor_le : floors.getD g.index 0 ≤ f.amount g.index - x

/-- A goal served leaves everything as it is, raises its variable or lowers it. Taking away is
giving a negative amount. -/
theorem serve_cases (p : DeviationProgram Rat) (floors : List Rat) (f : Funds Rat)
    (g : DeviationGoal Rat) : p.serve floors f g = f ∨
      (∃ x, p.Raises f g x ∧ p.serve floors f g = f.give g.index x) ∨
      ∃ x, Lowers floors f g x ∧ p.serve floors f g = f.give g.index (-x) := by
  unfold serve
  dsimp only
  split
  next hraise =>
    split
    next hpos =>
      refine .inr (.inl ⟨_, ⟨hraise.1, hpos, ?_, ?_, ?_⟩, rfl⟩)
      -- No more than is left, no more than the room, no more than what is missing.
      · refine (Limit.hold_le _ _).trans ?_
        rw [least_eq_min]
        exact min_le_right _ _
      · intro v hv hbounded
        rw [hv, Option.map_some, Option.getD_some]
        exact Variable.hold_headroom_le hbounded
      · rw [← le_sub_iff_add_le']
        refine (Limit.hold_le _ _).trans ?_
        rw [least_eq_min]
        exact min_le_left _ _
    next => exact .inl rfl
  next =>
    split
    next hlower =>
      split
      next hpos =>
        -- Down to the target or the floor, whichever is higher.
        rw [greatest_eq_max] at hpos ⊢
        refine .inr (.inr ⟨_, ⟨hlower.1, hpos, ?_, ?_⟩, ?_⟩)
        · rw [sub_sub_cancel]
          exact le_max_left _ _
        · rw [sub_sub_cancel]
          exact le_max_right _ _
        · simp only [Funds.give, sub_eq_add_neg, neg_neg]
      next => exact .inl rfl
    next => exact .inl rfl

/-- A goal served keeps the state sound. -/
theorem sound_serve {g : DeviationGoal Rat} (h : f.Sound p.vars 0 money) (hg : g ∈ p.goals)
    (hfloors : ∀ i v, p.vars[i]? = some v → v.minimum ≤ floors.getD i 0) :
    (p.serve floors f g).Sound p.vars 0 money := by
  have hi : g.index < p.vars.length := p.index_lt g hg
  rcases p.serve_cases floors f g with hserve | ⟨x, hx, hserve⟩ | ⟨x, hx, hserve⟩
  · rwa [hserve]
  · rw [hserve]
    exact h.spend le_rfl hi hx.pos.le hx.le_left hx.le_room
  · rw [hserve]
    refine h.move hi ?_ ?_ ?_
    · linarith [h.left_nonneg, hx.pos]
    · intro v hv
      linarith [hfloors g.index v hv, hx.floor_le]
    · intro v hv hbounded
      linarith [h.below g.index v hv hbounded, hx.pos]

theorem sound_serveTier {tier : List (DeviationGoal Rat)} (h : f.Sound p.vars 0 money)
    (htier : ∀ g ∈ tier, g ∈ p.goals) : (p.serveTier f tier).Sound p.vars 0 money := by
  refine List.foldlRecOn _ _ (motive := fun f : Funds Rat => f.Sound p.vars 0 money) h ?_
  intro f' hf' g hg
  exact sound_serve hf' (htier g ((byDescending_perm _ _).mem_iff.mp hg)) h.above

theorem sound_serveTiers {ts : List (Int × List (DeviationGoal Rat))}
    (h : f.Sound p.vars 0 money) (hts : ∀ tier ∈ ts, ∀ g ∈ tier.2, g ∈ p.goals) :
    (p.serveTiers f ts).Sound p.vars 0 money :=
  List.foldlRecOn ts _ (motive := fun f : Funds Rat => f.Sound p.vars 0 money) h
    fun _ hf tier htier => sound_serveTier hf (hts tier htier)

/-- Serving all tiers stays within bounds and spends no more than there is. -/
theorem exists_runPreemptive (h : checkMinimums p.vars p.income = .ok ()) :
    ∃ f, p.runPreemptive = .ok f ∧
      f.Sound p.vars 0 (max p.income (sumOfMinimums p.vars)) := by
  obtain ⟨start, hstart, hsound⟩ := Funds.exists_start (le_refl (0 : Rat)) h
  exact ⟨_, bind_eq_ok.mpr ⟨start, hstart, rfl⟩,
    sound_serveTiers hsound fun tier htier g hg => mem_of_mem_tiers htier hg⟩

/-- Whatever a run comes to is sound. -/
theorem sound_runPreemptive (h : p.runPreemptive = .ok f) :
    f.Sound p.vars 0 (max p.income (sumOfMinimums p.vars)) := by
  obtain ⟨_, hstart, _⟩ := bind_eq_ok.mp h
  obtain ⟨_, hcheck, _⟩ := bind_eq_ok.mp hstart
  obtain ⟨f', hf', hsound⟩ := exists_runPreemptive hcheck
  cases h.symm.trans hf'
  exact hsound

/-- An amount of every variable has a result that lists the amounts. -/
theorem exists_summarize {solution : List Rat} (hlen : solution.length = p.vars.length)
    (status : Status) (iterations : Nat) :
    ∃ r, p.summarize solution status iterations = .ok r ∧
      r.variableValues = p.valuesById solution := by
  have hmiss : ∀ g ∈ p.goals, ∃ m, miss solution g = .ok m := by
    intro g hg
    have hi : g.index < solution.length := hlen ▸ p.index_lt g hg
    exact ⟨⟨g.id, g.deviation solution[g.index]⟩, by rw [miss, List.getElem?_eq_getElem hi]⟩
  obtain ⟨misses, hmisses⟩ := exists_mapM_eq_ok hmiss
  rw [summarize, hmisses]
  exact ⟨_, rfl, rfl⟩

/-- A result of amounts that are not negative has none that is. -/
theorem summarize_values_nonneg {solution : List Rat} {status : Status} {iterations : Nat}
    {r : DeviationResult Rat} (hsolution : ∀ x ∈ solution, 0 ≤ x)
    (h : p.summarize solution status iterations = .ok r) :
    ∀ e ∈ r.variableValues.entries, 0 ≤ e.2 := by
  obtain ⟨_, _, h⟩ := bind_eq_ok.mp h
  cases h
  exact GoalProgram.valuesById_nonneg hsolution

/-- A program is solved only if its lower bounds fit into the income. -/
theorem checkMinimums_of_solvePreemptive {r : DeviationResult Rat}
    (h : p.solvePreemptive = .ok r) : checkMinimums p.vars p.income = .ok () := by
  obtain ⟨f, hrun, _⟩ := bind_eq_ok.mp h
  obtain ⟨start, hstart, _⟩ := bind_eq_ok.mp hrun
  obtain ⟨_, hcheck, _⟩ := bind_eq_ok.mp hstart
  exact hcheck

theorem solvePreemptive_values_nonneg {r : DeviationResult Rat} (h : p.solvePreemptive = .ok r) :
    ∀ e ∈ r.variableValues.entries, 0 ≤ e.2 := by
  obtain ⟨f, hrun, h⟩ := bind_eq_ok.mp h
  exact summarize_values_nonneg (sound_runPreemptive hrun).amounts_nonneg h

end GoalBudget.DeviationProgram
