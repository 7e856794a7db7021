import GoalBudget.Ledger
import GoalBudget.Program.Backend
import GoalBudget.Strategy.Variable

/-!
# Goal programs

A goal program has an income, variables, and goals that each score one variable. Every goal's
variable exists, which is part of the type. What a goal asks for is left open: the strategies have
goals of their own, with a curve, a ladder of levels, or a target.

A program is built item by item: a variable is put behind the others and a goal on it behind the
other goals (`addItem`), so that positions once given stay valid. A goal may also be added on a
variable that is already there (`addGoal`), and then it may turn out that there is none.

Also here is what the strategies share, from section 4.4 of the specification:

* the amounts given so far together with what is left of the income (`Funds`);
* the bounds and the budget row as statements to a solver (`boundCalls`, `budgetCall`);
* the attempt to have a program solved by a backend before falling back on a greedy run
  (`Backend.attempt`). A backend that stops without an optimum is no fault there, and every other
  fault of it is;
* the amounts of a solution by the ids of their variables, moved within the bounds (`clampSolution`,
  `valuesById`).
-/

namespace GoalBudget

/-- Goals that score one variable. -/
class Scores (γ : Type) where
  id : γ → String
  /-- The position of the variable it scores. -/
  index : γ → Nat

/-- An income, variables, and goals on them. -/
structure GoalProgram (α γ : Type) [Scalar α] [Scores γ] where
  income : α
  vars : List (Variable α)
  goals : List γ
  /-- Every goal scores a variable that exists. -/
  index_lt : ∀ g ∈ goals, Scores.index g < vars.length

namespace GoalProgram

variable {α γ : Type} [Scalar α] [Scores γ]

/-- A program without variables. -/
def ofIncome (income : α) : GoalProgram α γ := ⟨income, [], [], by simp⟩

/-- The program with another income. -/
def withIncome (p : GoalProgram α γ) (income : α) : GoalProgram α γ := { p with income }

/-- A variable put behind the others. -/
def addVariable (p : GoalProgram α γ) (v : Variable α) : GoalProgram α γ where
  income := p.income
  vars := p.vars ++ [v]
  goals := p.goals
  index_lt g hg := by
    have := p.index_lt g hg
    simp only [List.length_append, List.length_singleton]
    omega

/-- A goal on the variable at a position put behind the others, or the fault that there is
no such variable. -/
def addGoal (p : GoalProgram α γ) (index : Int) (goal : Nat → γ) :
    Except (Fault α) (GoalProgram α γ) :=
  let g := goal index.toNat
  if h : 0 ≤ index ∧ Scores.index g < p.vars.length then
    .ok
      { p with
        goals := p.goals ++ [g]
        index_lt := by
          intro x hx
          rcases List.mem_append.1 hx with hx | hx
          · exact p.index_lt x hx
          · rw [List.mem_singleton.1 hx]
            exact h.2 }
  else .error (.unknownVariable (Scores.id g) index)

/-- A variable with one goal on it. -/
def addItem (p : GoalProgram α γ) (v : Variable α) (goal : Nat → γ) :
    Except (Fault α) (GoalProgram α γ) :=
  (p.addVariable v).addGoal p.vars.length goal

/-- The amounts by the ids of their variables. -/
def valuesById (p : GoalProgram α γ) (solution : List α) : Ledger α :=
  Ledger.ofList ((p.vars.map (·.id)).zip solution)

/-- The upper bounds of the variables in a program with a budget row: never above the income. -/
def boundCalls (p : GoalProgram α γ) : List (Call α) :=
  p.vars.zipIdx.map fun v =>
    .bounds v.2 v.1.minimum (.upTo (least (v.1.upperBound p.income) p.income))

/-- The row that keeps the sum of the variables within the income, in a program of `n` columns. -/
def budgetCall (p : GoalProgram α γ) (n : Nat) : Call α :=
  let own := p.vars.length
  .row ⟨List.replicate own 1 ++ List.replicate (n - own) 0, .atMost, p.income⟩

/-- The part of a solution that concerns the variables, moved within their bounds. -/
def clampSolution (p : GoalProgram α γ) (solution : List α) : List α :=
  List.zipWith (fun x v => v.clamp p.income x) solution p.vars

end GoalProgram

/-- The amount at a position of a solution. An empty solution has zeros everywhere; a solution
that is too short has a fault. -/
def amountAt {α : Type} [Scalar α] (solution : List α) (i : Nat) : Except (Fault α) α :=
  match solution with
  | [] => .ok 0
  | _ =>
    match solution[i]? with
    | some x => .ok x
    | none => .error .positionOutOfRange

/-- A quotient, or the fault of dividing by zero. -/
def quotient {α : Type} [Scalar α] (a b : α) : Except (Fault α) α :=
  if b == 0 then .error .divisionByZero else .ok (a / b)

/-- The amounts given so far and what is left of the income. -/
structure Funds (α : Type) where
  amounts : List α
  left : α

namespace Funds

variable {α : Type} [Scalar α]

/-- The amount of one variable. -/
def amount (f : Funds α) (i : Nat) : α := f.amounts.getD i 0

/-- An amount moved from what is left to a variable. -/
def give (f : Funds α) (i : Nat) (x : α) : Funds α :=
  ⟨f.amounts.modify i (· + x), f.left - x⟩

/-- A variable raised to a value at a cost. -/
def raiseTo (f : Funds α) (i : Nat) (value cost : α) : Funds α :=
  ⟨f.amounts.set i value, f.left - cost⟩

end Funds

/-- How the amounts of a result were found. -/
inductive Method where
  | milp
  | greedy
  /-- Not at all: there was nothing to decide. -/
  | none
  deriving DecidableEq, Repr

/-- The name of a method. -/
def Method.name : Method → String
  | milp => "milp"
  | greedy => "greedy"
  | none => "none"

/-- The solution that a backend finds for a program, if it ends with one. A backend that stops
without one is no fault; any other fault is. -/
def Backend.attempt {α : Type} (b : Backend α) (calls : List (Call α)) :
    Except (Fault α) (Option (List α)) :=
  match (b.run calls).answer with
  | .ok answer => .ok (if answer.status = .optimal then some answer.solution else none)
  | .error (.stopped _) => .ok none
  | .error fault => .error fault

end GoalBudget
