import GoalBudget.Proofs.Fuzzy.Greedy

/-!
# The steps of a greedy fuzzy run

Five routines spend money, and all of them write the same amounts. `FuzzyProgram.Step` is a single
write of any of them, with what is known where it is made: a goal's share of a round of a climb, the
completion of the best goal, a category's proportion of a round of spending, and what is left put on
a variable.

A step gives a variable something that what is left and the upper bound admit, or nothing
(`Step.gives`). So every state that steps lead to from the lower bounds is within its bounds,
amounts only grow, and what is left only shrinks (`sound_of_steps`, `grows_of_steps`). All phases of
the greedy run are made of steps: `exists_phases`.

Loops are turned into steps by their own recursion, with the fold inside a round dealt with once
(`reflTransGen_foldlM`). A fact about single steps that is kept along a run is then all that has to
be shown of the run; the phases are not gone through again.
-/

open Relation (ReflTransGen)

namespace GoalBudget

/-- A run is made of the steps that its items make, each in the state that the items before it
lead to. -/
theorem reflTransGen_foldlM {ε σ τ : Type} {f : σ → τ → Except ε σ} {R : σ → σ → Prop}
    {items : List τ} {start result : σ}
    (hstep : ∀ done x rest, items = done ++ x :: rest → ∀ state next,
      done.foldlM f start = .ok state → f state x = .ok next → R state next)
    (h : items.foldlM f start = .ok result) : ReflTransGen R start result := by
  induction items using List.reverseRecOn generalizing result with
  | nil =>
    rw [List.foldlM_nil, pure_eq_ok] at h
    exact h ▸ .refl
  | append_singleton front last ih =>
    rw [List.foldlM_append] at h
    obtain ⟨state, hfront, h⟩ := bind_eq_ok.mp h
    obtain ⟨next, hlast, hnext⟩ := bind_eq_ok.mp h
    rw [List.foldlM_nil, pure_eq_ok] at hnext
    subst hnext
    refine .tail (ih ?_ hfront) (hstep front last [] rfl state next hfront hlast)
    intro done x rest hsplit
    exact hstep done x (rest ++ [last]) (by rw [hsplit, List.append_assoc, List.cons_append])

namespace FuzzyProgram

variable {p : FuzzyProgram Rat} {money : Rat} {f f' : Funds Rat} {goals : List (FuzzyGoal Rat)}
  {g : FuzzyGoal Rat} {i : Nat}

/-- A write of the greedy run. -/
inductive Step (p : FuzzyProgram Rat) : Funds Rat → Funds Rat → Prop where
  /-- In a round of a climb a goal takes its share, after the better offers of the round took
  theirs. All offers were made before the round. -/
  | share {goals : List (FuzzyGoal Rat)} {increment : Rat} {round : Funds Rat}
      {offers : List (Option (Offer Rat))} {done rest : List (Offer Rat)} {o : Offer Rat}
      {state next : Funds Rat × Bool} (hgoals : goals.Sublist p.goals)
      (hoffers : goals.mapM (p.offer? round increment) = .ok offers)
      (horder : byDescending (·.ratio) (offers.filterMap id) = done ++ o :: rest)
      (hdone : done.foldlM (p.takeShare increment (total ((offers.filterMap id).map (·.gain))))
        (round, false) = .ok state)
      (htake : p.takeShare increment (total ((offers.filterMap id).map (·.gain))) state o =
        .ok next) : Step p state.1 next.1
  /-- The goal that gains most per unit is completed. -/
  | completion {goals : List (FuzzyGoal Rat)} {f : Funds Rat} {best : Completion Rat}
      (hgoals : ∀ g ∈ goals, g ∈ p.goals)
      (hbest : goals.foldlM (p.considerCompletion f) none = .ok (some best)) :
      Step p f (f.give best.goal.index best.step)
  /-- In a round of spending a goal takes its proportion. -/
  | proportion {g : FuzzyGoal Rat} {increment totalTarget : Rat} {f next : Funds Rat}
      (hg : g ∈ p.goals) (hincrement : 0 ≤ increment) (htotal : 0 < totalTarget)
      (huseful : 0 ≤ g.curve.usefulLimit)
      (htake : p.takeProportion increment totalTarget f g = .ok next) : Step p f next
  /-- What is left is put on a variable. -/
  | topUp {f : Funds Rat} {entry : Variable Rat × Nat} (hentry : p.vars[entry.2]? = some entry.1) :
      Step p f (p.topUp f entry)

/-! ## What a step gives -/

/-- The goal of an offer is one of the goals that offers were asked of. -/
theorem offer?_eq_some {increment : Rat} {o : Offer Rat}
    (h : p.offer? f increment g = .ok (some o)) :
    o.goal = g ∧ 0 < o.step ∧ 0 < (g.curve.degree (f.amount g.index + o.step) -
      g.curve.degree (f.amount g.index)) * g.weight := by
  unfold offer? at h
  dsimp only at h
  rw [gainOf_eq] at h
  split at h
  next => cases h
  next hstep =>
    have hpos := minStep_pos.trans (not_le.mp hstep)
    rw [bind_of_eq_ok rfl] at h
    split at h
    next hgain =>
      rw [quotient_of_pos hpos] at h
      cases h
      exact ⟨rfl, hpos, minGain_pos.trans hgain⟩
    next => cases h

/-- The offers of a round come from the goals that were asked. -/
theorem mem_goals_of_mem_order {increment : Rat} {offers : List (Option (Offer Rat))}
    {order : List (Offer Rat)} (hoffers : goals.mapM (p.offer? f increment) = .ok offers)
    (horder : byDescending (·.ratio) (offers.filterMap id) = order) {o : Offer Rat}
    (ho : o ∈ order) : o.goal ∈ goals ∧ p.offer? f increment o.goal = .ok (some o) := by
  rw [← horder, (byDescending_perm Offer.ratio _).mem_iff] at ho
  obtain ⟨offer, hmem, rfl⟩ := List.mem_filterMap.mp ho
  obtain ⟨g, hg, hoffer⟩ := exists_of_mem_mapM hoffers hmem
  rw [(offer?_eq_some hoffer).1]
  exact ⟨hg, hoffer⟩

/-- A step gives a variable something that can be given to it, or nothing. -/
theorem Step.gives (h : p.Step f f') (hleft : 0 ≤ f.left) :
    f' = f ∨ ∃ i x, p.CanGive f i x ∧ f' = f.give i x := by
  cases h with
  | @share goals increment round offers done rest o state next hgoals hoffers horder hdone htake =>
    have ho := mem_goals_of_mem_order hoffers horder
      (List.mem_append_right done (List.mem_cons_self ..))
    have hgoal := hgoals.subset ho.1
    rcases takeShare_eq_ok hgoal htake with hsame | ⟨share, _, hcan, hnext⟩
    · exact .inl hsame
    · exact .inr ⟨_, share, hcan, hnext⟩
  | @completion goals f best hgoals hbest =>
    obtain ⟨best', hbest', hfits⟩ := exists_bestCompletion (f := f) hgoals
    cases hbest.symm.trans hbest'
    exact .inr ⟨_, best.step, (hfits best rfl).canGive, rfl⟩
  | proportion hg hincrement htotal huseful htake =>
    rw [takeProportion_eq htotal] at htake
    cases htake
    refine .inr ⟨_, _, canGive_proportion hg ?_ hleft, rfl⟩
    exact div_nonneg (mul_nonneg hincrement huseful) htotal.le
  | topUp hentry =>
    rcases p.topUp_cases f hentry with hsame | ⟨hcan, hnext⟩
    · exact .inl hsame
    · exact .inr ⟨_, _, hcan, hnext⟩

/-- A step keeps the state sound. -/
theorem Step.sound (h : p.Step f f') (hsound : f.Sound p.vars 0 money) :
    f'.Sound p.vars 0 money := by
  rcases h.gives hsound.left_nonneg with rfl | ⟨i, x, hcan, rfl⟩
  · exact hsound
  · exact hcan.sound hsound

/-- A step takes nothing away. -/
theorem Step.grows (h : p.Step f f') (hsound : f.Sound p.vars 0 money) : f.Grows f' := by
  rcases h.gives hsound.left_nonneg with rfl | ⟨i, x, hcan, rfl⟩
  · exact .refl _
  · exact Funds.grows_give (hsound.length ▸ hcan.index_lt) hcan.nonneg

/-- Steps keep the state sound. -/
theorem sound_of_steps (h : ReflTransGen p.Step f f') (hsound : f.Sound p.vars 0 money) :
    f'.Sound p.vars 0 money := by
  induction h with
  | refl => exact hsound
  | tail _ hstep ih => exact hstep.sound ih

theorem grows_of_steps (h : ReflTransGen p.Step f f') (hsound : f.Sound p.vars 0 money) :
    f.Grows f' := by
  induction h with
  | refl => exact .refl f
  | tail hsteps hstep ih => exact ih.trans (hstep.grows (sound_of_steps hsteps hsound))

/-! ## The run is made of steps -/

/-- By induction on the rounds that are left. -/
theorem steps_climb {increment : Rat} {made rounds : Nat} {result : Nat × Funds Rat}
    (hgoals : goals.Sublist p.goals) (h : p.climb goals increment made rounds f = .ok result) :
    ReflTransGen p.Step f result.2 := by
  induction rounds generalizing made f with
  | zero =>
    cases h
    exact .refl
  | succ rounds ih =>
    unfold climb at h
    obtain ⟨offers, hoffers, h⟩ := bind_eq_ok.mp h
    dsimp only at h
    split at h
    next =>
      cases h
      exact .refl
    next =>
      obtain ⟨state, hround, h⟩ := bind_eq_ok.mp h
      have hsteps := reflTransGen_foldlM
        (R := fun state next : Funds Rat × Bool => p.Step state.1 next.1)
        (fun done o rest hsplit state next hdone htake =>
          .share hgoals hoffers hsplit hdone htake) hround
      -- The round also tracks whether anything was given, which the steps forget.
      have hlift : ReflTransGen p.Step f state.1 := hsteps.lift Prod.fst fun _ _ hstep => hstep
      split at h
      next => exact hlift.trans (ih h)
      next =>
        cases h
        exact hlift

/-- A tier climbs by steps. -/
theorem steps_climbTier {state result : Nat × Funds Rat} (hgoals : goals.Sublist p.goals)
    (h : p.climbTier state goals = .ok result) : ReflTransGen p.Step state.2 result.2 := by
  obtain ⟨coarse, hcoarse, h⟩ := bind_eq_ok.mp h
  obtain ⟨fine, hfine, h⟩ := bind_eq_ok.mp h
  have hsteps := (steps_climb hgoals hcoarse).trans (steps_climb hgoals hfine)
  cases h
  exact hsteps

/-- A tier has some of the goals, in their order. -/
theorem sublist_of_mem_tiers {tier : Int × List (FuzzyGoal Rat)}
    (h : tier ∈ tiers (·.priority) p.goals) : tier.2.Sublist p.goals := by
  obtain ⟨level, _, rfl⟩ := List.mem_map.mp h
  exact List.filter_sublist

/-- All tiers climb by steps. -/
theorem steps_climbAll {start : List Rat × Rat} {result : Nat × Funds Rat}
    (hstart : startAtMinimums p.vars p.income = .ok start) (h : p.climbAll = .ok result) :
    ReflTransGen p.Step ⟨start.1, start.2⟩ result.2 := by
  rw [climbAll, bind_of_eq_ok hstart] at h
  refine foldlM_invariant
    (fun state : Nat × Funds Rat => ReflTransGen p.Step ⟨start.1, start.2⟩ state.2) ?_ .refl h
  intro tier htier state next hsteps hnext
  exact hsteps.trans (steps_climbTier (sublist_of_mem_tiers htier) hnext)

/-- Goals are completed by steps. -/
theorem steps_spendOnGoals {times : Nat} (hgoals : ∀ g ∈ goals, g ∈ p.goals)
    (h : p.spendOnGoals goals times f = .ok f') : ReflTransGen p.Step f f' := by
  induction times generalizing f with
  | zero =>
    cases h
    exact .refl
  | succ times ih =>
    unfold spendOnGoals at h
    obtain ⟨best, hbest, h⟩ := bind_eq_ok.mp h
    cases best with
    | none =>
      cases h
      exact .refl
    | some best => exact .head (.completion hgoals hbest) (ih h)

/-- By induction on the rounds. A goal that is open when a round starts has a useful limit above
its amount. -/
theorem steps_spendInRounds {increment : Rat} {rounds : Nat} (hgoals : ∀ g ∈ goals, g ∈ p.goals)
    (hincrement : 0 ≤ increment) (hsound : f.Sound p.vars 0 money)
    (h : p.spendInRounds goals increment rounds f = .ok f') : ReflTransGen p.Step f f' := by
  induction rounds generalizing f with
  | zero =>
    cases h
    exact .refl
  | succ rounds ih =>
    unfold spendInRounds at h
    dsimp only at h
    split at h
    next =>
      cases h
      exact .refl
    next hopen =>
      obtain ⟨next, hround, h⟩ := bind_eq_ok.mp h
      have hsteps : ReflTransGen p.Step f next := by
        refine reflTransGen_foldlM (fun done g rest hsplit state next' _ htake => ?_) hround
        -- Served are only goals with room, so the divisor of the proportions is positive.
        have hg : g ∈ goals.filter fun g => minStep < p.room f g :=
          hsplit ▸ List.mem_append_right done (List.mem_cons_self ..)
        obtain ⟨hmem, hroom⟩ := List.mem_filter.mp hg
        have hlt := lt_usefulLimit (minStep_pos.trans (of_decide_eq_true hroom))
        exact .proportion (hgoals g hmem) hincrement (not_le.mp (not_or.mp hopen).2)
          ((hsound.amount_nonneg g.index).trans hlt.le) htake
      exact hsteps.trans (ih (sound_of_steps hsteps hsound) h)

/-- The spending on categories is made of steps. -/
theorem steps_spendOnCategories (hsound : f.Sound p.vars 0 money)
    (h : p.spendOnCategories f = .ok f') : ReflTransGen p.Step f f' := by
  unfold spendOnCategories at h
  dsimp only at h
  split at h
  next =>
    cases h
    exact .refl
  next =>
    exact steps_spendInRounds (fun g hg => List.mem_of_mem_filter hg)
      (div_nonneg hsound.left_nonneg (by norm_num)) hsound h

/-- Variables topped up one after the other. -/
theorem steps_topUps {entries : List (Variable Rat × Nat)}
    (hentries : ∀ entry ∈ entries, p.vars[entry.2]? = some entry.1) :
    ReflTransGen p.Step f (entries.foldl p.topUp f) := by
  refine List.foldlRecOn entries p.topUp (motive := fun s => ReflTransGen p.Step f s) .refl ?_
  intro state hsteps entry hentry
  exact hsteps.tail (.topUp (hentries entry hentry))

theorem steps_spendOnHeadroom (p : FuzzyProgram Rat) (f : Funds Rat) :
    ReflTransGen p.Step f (p.spendOnHeadroom f) :=
  steps_topUps fun _ => List.mem_zipIdx_iff_getElem?.mp

/-- The phases of a greedy run with the states that they end in: after the climbs, after the
completions and after the spending on categories. Steps lead from each to the next. -/
structure Phases (p : FuzzyProgram Rat) (rounds : Nat)
    (start climbed completed spread : Funds Rat) : Prop where
  start_eq : startAtMinimums p.vars p.income = .ok (start.amounts, start.left)
  climbed_eq : p.climbAll = .ok (rounds, climbed)
  completed_eq : p.spendOnGoals ((tiers (·.priority) p.goals).flatMap (·.2))
    ((tiers (·.priority) p.goals).flatMap (·.2)).length climbed = .ok completed
  spread_eq : p.spendOnCategories completed = .ok spread
  greedy_eq : p.greedy = .ok (rounds, p.spendOnHeadroom spread)
  climbing : ReflTransGen p.Step start climbed
  completing : ReflTransGen p.Step climbed completed
  spreading : ReflTransGen p.Step completed spread
  topping : ReflTransGen p.Step spread (p.spendOnHeadroom spread)

/-- The phases lead from the first state to the last by steps. -/
theorem Phases.steps {rounds : Nat} {start climbed completed spread : Funds Rat}
    (h : p.Phases rounds start climbed completed spread) : ReflTransGen p.Step start spread :=
  (h.climbing.trans h.completing).trans h.spreading

/-- Where the lower bounds pass the check, the greedy run goes through its phases. -/
theorem exists_phases (h : checkMinimums p.vars p.income = .ok ()) :
    ∃ rounds start climbed completed spread, p.Phases rounds start climbed completed spread ∧
      start.Sound p.vars 0 (max p.income (sumOfMinimums p.vars)) := by
  obtain ⟨start, hstart, hsound⟩ := Funds.exists_start (le_refl (0 : Rat)) h
  obtain ⟨result, hresult, _⟩ := exists_greedy h
  obtain ⟨⟨rounds, climbed⟩, hclimbed, hgreedy⟩ := bind_eq_ok.mp hresult
  obtain ⟨completed, hcompleted, hgreedy⟩ := bind_eq_ok.mp hgreedy
  obtain ⟨spread, hspread, hgreedy⟩ := bind_eq_ok.mp hgreedy
  cases hgreedy
  have hgoals : ∀ g ∈ (tiers (·.priority) p.goals).flatMap (·.2), g ∈ p.goals := by
    intro g hg
    obtain ⟨tier, htier, hg⟩ := List.mem_flatMap.mp hg
    exact mem_of_mem_tiers htier hg
  have hclimbing := steps_climbAll hstart hclimbed
  have hcompleting := steps_spendOnGoals hgoals hcompleted
  have hcompletedSound := sound_of_steps (hclimbing.trans hcompleting) hsound
  exact ⟨rounds, ⟨start.1, start.2⟩, climbed, completed, spread,
    ⟨hstart, hclimbed, hcompleted, hspread, hresult, hclimbing, hcompleting,
      steps_spendOnCategories hcompletedSound hspread, p.steps_spendOnHeadroom spread⟩, hsound⟩

end FuzzyProgram

end GoalBudget
