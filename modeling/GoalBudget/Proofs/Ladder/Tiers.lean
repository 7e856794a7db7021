import GoalBudget.Ladder.Greedy
import GoalBudget.Proofs.Fault.Success
import GoalBudget.Proofs.Strategy.Tiers

/-!
# Ladders by greedy steps, stopped after a priority

`greedyUpTo` is where the run stands after the tiers up to a priority; the tiers behind it go on
from there (`greedy_eq_bind`). A tier touches the variables of its own goals only
(`amounts_serveTier`): a turn raises the goal's own variable, and an upgrade that is bought belongs
to a goal that was considered (`index_of_best`). Of the program a tier reads the variables only
(`serveTier_congr`).

So nothing about less important goals can make a difference to what the more important ones get, be
it their levels, their weights or their number (`greedyUpTo_congr`). All of this holds over any
scalar type: no law of arithmetic is used, only where amounts are read and written.
-/

namespace GoalBudget.LadderProgram

variable {α : Type} [Scalar α] {p q : LadderProgram α} {f : Funds α} {g : LadderGoal α}
  {tier : List (LadderGoal α)} {i : Nat} {k : Int}

/-- Tiers served one after the other. -/
def serveTiers (p : LadderProgram α) (state : Nat × Funds α)
    (ts : List (Int × List (LadderGoal α))) : Except (Fault α) (Nat × Funds α) :=
  ts.foldlM (fun state tier => p.serveTier state tier.2) state

/-- The steps and amounts after the tiers up to a priority. -/
def greedyUpTo (p : LadderProgram α) (k : Int) : Except (Fault α) (Nat × Funds α) := do
  let (amounts, left) ← startAtMinimums p.vars p.income
  p.serveTiers (0, ⟨amounts, left⟩) (tiersUpTo (·.priority) k p.goals)

/-- The tiers behind a priority, from where the run stands after it. -/
def serveBeyond (p : LadderProgram α) (k : Int) (state : Nat × Funds α) :
    Except (Fault α) (Nat × Funds α) :=
  p.serveTiers state (tiersBeyond (·.priority) k p.goals)

/-- The run goes through where it stands after a priority. -/
theorem greedy_eq_bind (p : LadderProgram α) (k : Int) :
    p.greedy = p.greedyUpTo k >>= p.serveBeyond k := by
  rw [greedy, greedyUpTo, ← tiersUpTo_append_tiersBeyond (·.priority) k p.goals]
  cases startAtMinimums p.vars p.income with
  | error e => rfl
  | ok start => exact List.foldlM_append

/-! ## What is read -/

section
variable (hvars : p.vars = q.vars)
include hvars

theorem admits_congr (l : Level α) : p.admits i l = q.admits i l := by
  rw [admits, admits, hvars]

theorem takeTurn_congr (f : Funds α) (g : LadderGoal α) : p.takeTurn f g = q.takeTurn f g := by
  unfold takeTurn
  induction g.levels.reverse with
  | nil => rfl
  | cons l lower ih => rw [takeHighest, takeHighest, admits_congr hvars, ih]

theorem considerUpgrade_congr (f : Funds α) (best : Option (Upgrade α)) (g : LadderGoal α) :
    p.considerUpgrade f best g = q.considerUpgrade f best g := by
  unfold considerUpgrade
  simp only [admits_congr hvars]

theorem upgrade_congr (tier : List (LadderGoal α)) (made rounds : Nat) (f : Funds α) :
    p.upgrade tier made rounds f = q.upgrade tier made rounds f := by
  have hconsider (f : Funds α) : p.considerUpgrade f = q.considerUpgrade f :=
    funext fun best => funext (considerUpgrade_congr hvars f best)
  induction rounds generalizing made f with
  | zero => rfl
  | succ rounds ih =>
    rw [upgrade, upgrade, hconsider]
    refine congrArg _ (funext fun best => ?_)
    cases best with
    | none => rfl
    | some u => exact ih (made + 1) (f.raiseTo u.index u.value u.cost)

theorem serveTier_congr (state : Nat × Funds α) (tier : List (LadderGoal α)) :
    p.serveTier state tier = q.serveTier state tier := by
  have hturns : p.takeTurn = q.takeTurn := funext fun f => funext (takeTurn_congr hvars f)
  unfold serveTier
  simp only [hturns, upgrade_congr hvars]

theorem serveTiers_congr (state : Nat × Funds α) (ts : List (Int × List (LadderGoal α))) :
    p.serveTiers state ts = q.serveTiers state ts := by
  unfold serveTiers
  simp only [serveTier_congr hvars]

end

/-- Where the programs agree up to a priority, they stand the same after it. -/
theorem greedyUpTo_congr (h : GoalProgram.AgreesUpTo (·.priority) k p q) :
    p.greedyUpTo k = q.greedyUpTo k := by
  rw [greedyUpTo, greedyUpTo, h.income, h.vars, tiersUpTo_congr _ _ h.goals]
  exact congrArg _ (funext fun start => serveTiers_congr h.vars _ _)

/-! ## What is touched -/

/-- A turn leaves the other variables alone. -/
theorem amounts_takeTurn (h : g.index ≠ i) : (p.takeTurn f g).amounts[i]? = f.amounts[i]? := by
  unfold takeTurn
  induction g.levels.reverse with
  | nil => rfl
  | cons l lower ih =>
    unfold takeHighest
    dsimp only
    split
    next => exact ih
    next =>
      split
      next => rfl
      next =>
        split
        next => exact List.getElem?_set_ne h
        next => exact ih

/-- An upgrade that is the best one after a goal was so before or is the goal's own. -/
theorem index_considerUpgrade {best next : Option (Upgrade α)}
    (h : p.considerUpgrade f best g = .ok next) :
    next = best ∨ ∃ u, next = some u ∧ u.index = g.index := by
  unfold considerUpgrade at h
  dsimp only at h
  split at h
  next => exact .inl (pure_eq_ok.mp h).symm
  next =>
    split at h
    next => exact .inl (pure_eq_ok.mp h).symm
    next =>
      split at h
      next =>
        obtain ⟨ratio, _, h⟩ := bind_eq_ok.mp h
        split at h
        next => exact .inr ⟨_, (pure_eq_ok.mp h).symm, rfl⟩
        next => exact .inl (pure_eq_ok.mp h).symm
      next => exact .inl (pure_eq_ok.mp h).symm

/-- The best upgrade of a tier is one of its goals'. -/
theorem index_of_best (h : ∀ g ∈ tier, g.index ≠ i) {best : Option (Upgrade α)}
    (hbest : tier.foldlM (p.considerUpgrade f) none = .ok best) : ∀ u ∈ best, u.index ≠ i := by
  refine foldlM_invariant (fun best : Option (Upgrade α) => ∀ u ∈ best, u.index ≠ i)
    (fun g hg before after hbefore hgoal => ?_) (fun u hu => by cases hu) hbest
  rcases index_considerUpgrade hgoal with hsame | ⟨u, hown, hu⟩
  · exact hsame ▸ hbefore
  · intro u' hu'
    cases hown.symm.trans hu'
    exact hu ▸ h g hg

/-- Upgrades that are bought leave the variables alone that no goal of the tier is on. -/
theorem amounts_upgrade (h : ∀ g ∈ tier, g.index ≠ i) {made rounds : Nat}
    {result : Nat × Funds α} (hresult : p.upgrade tier made rounds f = .ok result) :
    result.2.amounts[i]? = f.amounts[i]? := by
  induction rounds generalizing made f with
  | zero =>
    cases hresult
    rfl
  | succ rounds ih =>
    unfold upgrade at hresult
    obtain ⟨best, hbest, hresult⟩ := bind_eq_ok.mp hresult
    cases best with
    | none =>
      cases hresult
      rfl
    | some u =>
      have hindex : u.index ≠ i := index_of_best h hbest u rfl
      exact (ih hresult).trans (List.getElem?_set_ne hindex)

/-- A tier leaves the variables of other goals alone. -/
theorem amounts_serveTier {state result : Nat × Funds α} (h : ∀ g ∈ tier, g.index ≠ i)
    (hresult : p.serveTier state tier = .ok result) :
    result.2.amounts[i]? = state.2.amounts[i]? := by
  obtain ⟨⟨bought, f⟩, hbought, hresult⟩ := bind_eq_ok.mp hresult
  cases pure_eq_ok.mp hresult
  have horder : ∀ g ∈ byDescending (·.weight) tier, g.index ≠ i :=
    fun g hg => h g ((byDescending_perm _ _).mem_iff.mp hg)
  refine (amounts_upgrade horder hbought).trans ?_
  refine List.foldlRecOn _ _
    (motive := fun f' : Funds α => f'.amounts[i]? = state.2.amounts[i]?) rfl ?_
  intro f' hf' g hg
  exact (amounts_takeTurn (horder g hg)).trans hf'

/-- Tiers served leave the variables alone that none of their goals is on. -/
theorem amounts_serveTiers {state result : Nat × Funds α}
    {ts : List (Int × List (LadderGoal α))} (h : ∀ tier ∈ ts, ∀ g ∈ tier.2, g.index ≠ i)
    (hresult : p.serveTiers state ts = .ok result) :
    result.2.amounts[i]? = state.2.amounts[i]? :=
  foldlM_invariant (fun state' : Nat × Funds α => state'.2.amounts[i]? = state.2.amounts[i]?)
    (fun tier htier _ _ hsame hserved => (amounts_serveTier (h tier htier) hserved).trans hsame)
    rfl hresult

/-- A variable that no goal beyond a priority is on keeps its amount from there. -/
theorem amounts_greedy {result : Nat × Funds α} (hrun : p.greedy = .ok result)
    (h : ∀ g ∈ p.goals, k < g.priority → g.index ≠ i) :
    ∃ state, p.greedyUpTo k = .ok state ∧ result.2.amounts[i]? = state.2.amounts[i]? := by
  rw [greedy_eq_bind p k] at hrun
  obtain ⟨state, hstate, hresult⟩ := bind_eq_ok.mp hrun
  refine ⟨state, hstate, amounts_serveTiers (fun tier htier g hg => ?_) hresult⟩
  obtain ⟨hmem, hpriority⟩ := lt_priority_of_mem_tiersBeyond htier hg
  exact h g hmem hpriority

end GoalBudget.LadderProgram
