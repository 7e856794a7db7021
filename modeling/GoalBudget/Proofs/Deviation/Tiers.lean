import GoalBudget.Deviation.Solve
import GoalBudget.Proofs.Fault.Success
import GoalBudget.Proofs.Strategy.Tiers

/-!
# Goals in strict order, stopped after a priority

`servedUpTo` is where the run stands after the tiers up to a priority; the tiers behind it go on
from there (`runPreemptive_eq_bind`, `servedUpTo_eq_bind`). A tier touches the variables of its own
goals only (`amounts_serveTier`), and of the program it reads the variables only (`serve_congr`).

So the amounts and the money after a priority are the same in two programs that agree on the
variables, the income and the goals up to that priority (`servedUpTo_congr`). This holds over any
scalar type, since only the places where amounts are read and written matter.
-/

namespace GoalBudget.DeviationProgram

variable {α : Type} [Scalar α] {p q : DeviationProgram α} {f : Funds α} {floors : List α}
  {g : DeviationGoal α} {i : Nat} {k m : Int}

/-- Tiers served one after the other. -/
def serveTiers (p : DeviationProgram α) (f : Funds α) (ts : List (Int × List (DeviationGoal α))) :
    Funds α :=
  ts.foldl (fun f tier => p.serveTier f tier.2) f

/-- The amounts after the tiers up to a priority. -/
def servedUpTo (p : DeviationProgram α) (k : Int) : Except (Fault α) (Funds α) := do
  let (amounts, left) ← startAtMinimums p.vars p.income
  return p.serveTiers ⟨amounts, left⟩ (tiersUpTo (·.priority) k p.goals)

/-- The tiers behind a priority, from where the run stands after it. -/
def serveBeyond (p : DeviationProgram α) (k : Int) (f : Funds α) : Except (Fault α) (Funds α) :=
  .ok (p.serveTiers f (tiersBeyond (·.priority) k p.goals))

/-- The run goes through where it stands after a priority. -/
theorem runPreemptive_eq_bind (p : DeviationProgram α) (k : Int) :
    p.runPreemptive = p.servedUpTo k >>= p.serveBeyond k := by
  rw [runPreemptive, servedUpTo, ← tiersUpTo_append_tiersBeyond (·.priority) k p.goals]
  cases startAtMinimums p.vars p.income with
  | error e => rfl
  | ok start => exact congrArg Except.ok List.foldl_append

/-- After a less important priority it stands where the tiers between the two lead to. -/
theorem servedUpTo_eq_bind (p : DeviationProgram α) (hkm : k ≤ m) : p.servedUpTo m = do
    let f ← p.servedUpTo k
    return p.serveTiers f (tiersBeyond (·.priority) k (p.goals.filter (·.priority ≤ m))) := by
  rw [servedUpTo, servedUpTo, tiersUpTo_append _ _ _ _ hkm]
  cases startAtMinimums p.vars p.income with
  | error e => rfl
  | ok start => exact congrArg Except.ok List.foldl_append

/-- After the least important priority the run is over. -/
theorem servedUpTo_eq_runPreemptive (p : DeviationProgram α)
    (h : ∀ g ∈ p.goals, g.priority ≤ m) : p.servedUpTo m = p.runPreemptive := by
  have hall : p.goals.filter (·.priority ≤ m) = p.goals :=
    List.filter_eq_self.mpr fun g hg => by simpa using h g hg
  rw [servedUpTo, tiersUpTo_eq, hall]
  rfl

/-! ## What is read and what is touched -/

theorem serve_congr (hvars : p.vars = q.vars) : p.serve floors f g = q.serve floors f g := by
  rw [serve, serve, hvars]

theorem serveTiers_congr (hvars : p.vars = q.vars) (f : Funds α)
    (ts : List (Int × List (DeviationGoal α))) : p.serveTiers f ts = q.serveTiers f ts := by
  refine List.foldl_ext _ _ _ fun f' tier _ => ?_
  exact List.foldl_ext _ _ _ fun f'' g _ => serve_congr hvars

/-- Where the programs agree up to a priority, they stand the same after it. -/
theorem servedUpTo_congr (h : GoalProgram.AgreesUpTo (·.priority) k p q) :
    p.servedUpTo k = q.servedUpTo k := by
  rw [servedUpTo, servedUpTo, h.income, h.vars, tiersUpTo_congr _ _ h.goals]
  exact congrArg _ (funext fun start => congrArg Except.ok (serveTiers_congr h.vars _ _))

/-- A goal served leaves the other variables alone. -/
theorem amounts_serve (h : g.index ≠ i) : (p.serve floors f g).amounts[i]? = f.amounts[i]? := by
  unfold serve
  dsimp only
  split
  next =>
    split
    next => exact List.getElem?_modify_ne _ _ h
    next => rfl
  next =>
    split
    next =>
      split
      next => exact List.getElem?_modify_ne _ _ h
      next => rfl
    next => rfl

/-- A tier leaves the variables of other goals alone. -/
theorem amounts_serveTier {tier : List (DeviationGoal α)} (h : ∀ g ∈ tier, g.index ≠ i) :
    (p.serveTier f tier).amounts[i]? = f.amounts[i]? := by
  refine List.foldlRecOn _ _
    (motive := fun f' : Funds α => f'.amounts[i]? = f.amounts[i]?) rfl ?_
  intro f' hf' g hg
  exact (amounts_serve (h g ((byDescending_perm _ _).mem_iff.mp hg))).trans hf'

/-- Tiers served leave the variables alone that none of their goals is on. -/
theorem amounts_serveTiers {ts : List (Int × List (DeviationGoal α))}
    (h : ∀ tier ∈ ts, ∀ g ∈ tier.2, g.index ≠ i) :
    (p.serveTiers f ts).amounts[i]? = f.amounts[i]? := by
  refine List.foldlRecOn ts _
    (motive := fun f' : Funds α => f'.amounts[i]? = f.amounts[i]?) rfl ?_
  intro f' hf' tier htier
  exact (amounts_serveTier (h tier htier)).trans hf'

/-- A variable that no goal beyond a priority is on keeps its amount from there. -/
theorem amounts_runPreemptive (hrun : p.runPreemptive = .ok f)
    (h : ∀ g ∈ p.goals, k < g.priority → g.index ≠ i) :
    ∃ f', p.servedUpTo k = .ok f' ∧ f.amounts[i]? = f'.amounts[i]? := by
  rw [runPreemptive_eq_bind p k] at hrun
  obtain ⟨f', hf', hf⟩ := bind_eq_ok.mp hrun
  cases hf
  refine ⟨f', hf', ?_⟩
  refine amounts_serveTiers fun tier htier g hg => ?_
  obtain ⟨hmem, hpriority⟩ := lt_priority_of_mem_tiersBeyond htier hg
  exact h g hmem hpriority

end GoalBudget.DeviationProgram
