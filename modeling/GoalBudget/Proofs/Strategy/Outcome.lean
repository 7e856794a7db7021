import GoalBudget.Proofs.Strategy.Affordable
import GoalBudget.Proofs.Strategy.Minimums

/-!
# What can go wrong in a strategy

Every program of a budget can be made: its variables have bounds that are in order
(`Variable.exists_make`), and each goal comes with its variable (`exists_addItem`). So the only
thing that decides whether a strategy has a result is the check of the lower bounds, and in a
program of a budget these make up the flexible minimums (`checkMinimums_of_adds`).

A backend that is asked does not change this as long as it answers at all; that is what
`AnswersAsScripted` says. A session with such a backend ends with a status, and a status that is not
optimal is no fault of the strategies that consult (`attempt`).

A solution that is too short for the variables is the one way left for a result to be missing, and
it cannot come about where the backend keeps to the width it was made for.
-/

namespace GoalBudget

/-! ## Variables and goals -/

/-- Bounds that are in order are the bounds of a variable. -/
theorem Variable.exists_make (id name : String) (kind : ItemKind) {minimum maximum : Rat}
    (hminimum : 0 ≤ minimum) (hmaximum : 0 ≤ maximum) (h : 0 < maximum → minimum ≤ maximum) :
    ∃ v, make id name kind minimum maximum = .ok v := by
  have hsign : ¬(minimum < 0 ∨ maximum < 0) := not_or.mpr ⟨not_lt.mpr hminimum, not_lt.mpr hmaximum⟩
  have horder : ¬(0 < maximum ∧ maximum < minimum) := fun hlt => not_lt.mpr (h hlt.1) hlt.2
  exact ⟨_, (dif_neg hsign).trans (dif_neg horder)⟩

namespace Category

theorem minimum_le_of_pos (c : Category Rat) (h : 0 < c.maximum) : c.minimum ≤ c.maximum :=
  not_lt.mp fun hlt => c.minimum_le_maximum ⟨h, hlt⟩

/-- The bounds of a category are the right way round, or there is no maximum. -/
theorem bounds_ordered (c : Category Rat) :
    0 ≤ c.minimum ∧ c.minimum ≤ c.maximum ∨ c.maximum = 0 := by
  rcases (not_lt.mp c.maximum_nonneg).eq_or_lt with hzero | hpos
  · exact .inr hzero.symm
  · exact .inl ⟨not_lt.mp c.minimum_nonneg, c.minimum_le_of_pos hpos⟩

end Category

theorem Debt.scheduledPayment_nonneg (d : Debt Rat) : 0 ≤ d.scheduledPayment := by
  unfold Debt.scheduledPayment
  split
  next => exact not_lt.mp d.fixedPayment_nonneg
  next => exact not_lt.mp d.minimumPayment_nonneg

namespace GoalProgram

variable {γ : Type} [Scores γ] {p q : GoalProgram Rat γ}

/-- A goal on a variable that there is can be added. -/
theorem exists_addGoal {i : Nat} {goal : Nat → γ} (h : Scores.index (goal i) < p.vars.length) :
    ∃ q, p.addGoal i goal = .ok q := by
  have hcond : 0 ≤ (i : Int) ∧ Scores.index (goal (i : Int).toNat) < p.vars.length :=
    ⟨Int.natCast_nonneg i, h⟩
  exact ⟨_, dif_pos hcond⟩

/-- A variable can be added with a goal on it. -/
theorem exists_addItem (p : GoalProgram Rat γ) (v : Variable Rat) {goal : Nat → γ}
    (h : ∀ i, Scores.index (goal i) = i) : ∃ q, p.addItem v goal = .ok q := by
  refine exists_addGoal ?_
  rw [h, addVariable, List.length_append, List.length_singleton]
  exact Nat.lt_succ_self _

/-- A goal leaves the variables alone. -/
theorem vars_addGoal {i : Int} {goal : Nat → γ} (h : p.addGoal i goal = .ok q) :
    q.vars = p.vars := by
  unfold addGoal at h
  dsimp only at h
  split at h
  next =>
    cases h
    rfl
  next => cases h

/-- An item adds one variable. -/
theorem vars_addItem {v : Variable Rat} {goal : Nat → γ} (h : p.addItem v goal = .ok q) :
    q.vars = p.vars ++ [v] :=
  vars_addGoal h

/-- A goal is put behind the others. -/
theorem goals_addGoal {i : Nat} {goal : Nat → γ} (h : p.addGoal i goal = .ok q) :
    q.goals = p.goals ++ [goal i] := by
  unfold addGoal at h
  dsimp only at h
  split at h
  next =>
    cases h
    rfl
  next => cases h

/-- An item adds one goal, on its own variable. -/
theorem goals_addItem {v : Variable Rat} {goal : Nat → γ} (h : p.addItem v goal = .ok q) :
    q.goals = p.goals ++ [goal p.vars.length] :=
  goals_addGoal (p := p.addVariable v) h

/-- What holds of all goals and of a new one wherever its variable comes to stand. -/
theorem forall_goals_addItem {P : γ → Prop} {v : Variable Rat} {goal : Nat → γ}
    (hp : ∀ g ∈ p.goals, P g) (hgoal : ∀ i, P (goal i)) (h : p.addItem v goal = .ok q) :
    ∀ g ∈ q.goals, P g := by
  rw [goals_addItem h]
  intro g hg
  rcases List.mem_append.mp hg with hg | hg
  · exact hp g hg
  · rw [List.mem_singleton.mp hg]
    exact hgoal _

end GoalProgram

/-! ## The check of the lower bounds -/

/-- The check whether the flexible minimums fit into an income, with the tolerance that every
strategy has. -/
def checkFloor (b : Budget Rat) (income : Rat) : Except (Fault Rat) Unit :=
  if income + deviationTolerance < flexibleFloor b then
    .error (.infeasibleMinimums (flexibleFloor b - income))
  else .ok ()

/-- The check of the lower bounds of a program of a budget. -/
theorem checkMinimums_of_adds {γ : Type} [Scores γ] {p : GoalProgram Rat γ} {b : Budget Rat}
    (h : GoalProgram.Adds (.ofIncome b.income) p (0 + flexibleFloor b)) :
    checkMinimums p.vars p.income = checkFloor b b.income := by
  have hincome : p.income = b.income := h.income
  have hsum : sumOfMinimums p.vars = flexibleFloor b := by
    rw [h.minimums]
    simp [GoalProgram.ofIncome, sumOfMinimums]
  rw [checkMinimums, checkFloor, hincome, hsum]

/-- Without variables the check passes. -/
theorem checkMinimums_nil {income : Rat} (h : 0 ≤ income) : checkMinimums [] income = .ok () :=
  checkMinimums_of_le h

/-! ## Backends -/

/-- Every backend there is answers with a status and a solution known in advance, with zeros in
the columns that the solution does not reach. -/
def AnswersAsScripted (backends : Nat → Option (Backend Rat)) : Prop :=
  ∀ n b, backends n = some b → ∃ status solution, b = .scripted status solution n

namespace AnswersAsScripted

variable {backends : Nat → Option (Backend Rat)} {n : Nat} {b : Backend Rat}

/-- Such a backend has a solution for all columns, or none. -/
theorem attempt (h : AnswersAsScripted backends) (hb : backends n = some b)
    (calls : List (Call Rat)) : ∃ solution?, b.attempt calls = .ok solution? ∧
      ∀ solution ∈ solution?, n ≤ solution.length := by
  obtain ⟨status, solution, rfl⟩ := h n b hb
  rw [Backend.attempt, Backend.answer_scripted]
  refine ⟨_, rfl, ?_⟩
  intro answer hanswer
  split at hanswer
  next =>
    cases hanswer
    rw [List.length_append, List.length_replicate]
    omega
  next => cases hanswer

end AnswersAsScripted

/-! ## Solutions -/

/-- A position within a solution has an amount. -/
theorem amountAt_of_lt {solution : List Rat} {i : Nat} (h : i < solution.length) :
    amountAt solution i = .ok solution[i] := by
  unfold amountAt
  split
  next => exact absurd h (Nat.not_lt_zero _)
  next => rw [List.getElem?_eq_getElem h]

/-- An amount has no other fault than that it is missing. -/
theorem amountAt_eq_error {solution : List Rat} {i : Nat} {e : Fault Rat}
    (h : amountAt solution i = .error e) : e = .positionOutOfRange := by
  unfold amountAt at h
  split at h
  next => cases h
  next =>
    split at h
    next => cases h
    next =>
      cases h
      rfl

/-- A solution that has an amount for every variable still has when it is moved within the
bounds. -/
theorem GoalProgram.length_clampSolution {γ : Type} [Scores γ] {p : GoalProgram Rat γ}
    {solution : List Rat} (h : p.vars.length ≤ solution.length) :
    (p.clampSolution solution).length = p.vars.length := by
  rw [clampSolution, List.length_zipWith]
  omega

end GoalBudget
