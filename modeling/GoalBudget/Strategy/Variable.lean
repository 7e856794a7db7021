import GoalBudget.Fault
import GoalBudget.Number.Limit

/-!
# Decision variables

A variable is the amount given to one item. It has a lower bound and an upper bound; an upper bound
of zero stands for none. This is the decision variable of section 3 of the specification: one for
each item that is to be decided about, with the bounds in order by construction.

Every allocation starts by giving each variable its lower bound (`startAtMinimums`). If the lower
bounds exceed the income that is a fault, but for a hundredth: rounding in the bounds of a budget
must not make it infeasible. The same tolerance is granted where a result is said to be feasible
(`nearlyFeasible`).

A solver needs a finite upper bound for every column, so an unbounded variable gets a fallback, as a
rule the income, which is raised to the lower bound if it is below (`Variable.upperBound`).
-/

namespace GoalBudget

/-- What an item is. -/
inductive ItemKind where
  | category | debt | goal
  deriving DecidableEq, Repr

namespace ItemKind

/-- All kinds. -/
def all : List ItemKind := [category, debt, goal]

/-- The name of a kind. -/
def name : ItemKind → String
  | category => "category"
  | debt => "debt"
  | goal => "goal"

/-- The kind with a given name. -/
def ofName? (name : String) : Option ItemKind := all.find? fun k => k.name == name

end ItemKind

/-- The amount given to one item, to be decided. -/
structure Variable (α : Type) [Scalar α] where
  id : String
  name : String
  kind : ItemKind
  minimum : α
  /-- The greatest amount; zero for none. -/
  maximum : α
  bounds_nonneg : ¬(minimum < 0 ∨ maximum < 0)
  /-- An upper bound that is set is not below the lower one. -/
  minimum_le_maximum : ¬(0 < maximum ∧ maximum < minimum)

/-- Amounts within this much of each other count as the same. -/
def deviationTolerance {α : Type} [Scalar α] : α := 0.01

namespace Variable

variable {α : Type} [Scalar α]

/-- A variable with the given data, or the first check that it fails. -/
def make (id name : String) (kind : ItemKind) (minimum maximum : α) :
    Except (Fault α) (Variable α) :=
  if h₁ : minimum < 0 ∨ maximum < 0 then .error (.negativeBound id)
  else if h₂ : 0 < maximum ∧ maximum < minimum then .error (.boundsReversed id)
  else .ok ⟨id, name, kind, minimum, maximum, h₁, h₂⟩

/-- The variable of a kind given by name, or the first check that it fails. -/
def ofKindName (id name kind : String) (minimum maximum : α) : Except (Fault α) (Variable α) :=
  match ItemKind.ofName? kind with
  | none => .error (.unknownVariableKind kind)
  | some k => make id name k minimum maximum

/-- Whether there is an upper bound. -/
def isBounded (v : Variable α) : Bool := 0 < v.maximum

/-- The upper bound, or where there is none a fallback that is not below the lower bound. -/
def upperBound (v : Variable α) (fallback : α) : α :=
  if v.isBounded then v.maximum else greatest fallback v.minimum

/-- How much can still be added to an amount. -/
def headroom (v : Variable α) (current : α) : Limit α :=
  if v.isBounded then .upTo (greatest 0 (v.maximum - current)) else .unbounded

/-- Whether an amount is within the bounds, but for the tolerance. -/
def nearlyAllows (v : Variable α) (x : α) : Bool :=
  v.minimum - deviationTolerance ≤ x &&
    (!v.isBounded || x ≤ v.maximum + deviationTolerance)

/-- An amount moved to the nearest one within the bounds. -/
def clamp (v : Variable α) (fallback x : α) : α :=
  least (greatest x v.minimum) (v.upperBound fallback)

end Variable

section
variable {α : Type} [Scalar α]

/-- The sum of the lower bounds. -/
def sumOfMinimums (vars : List (Variable α)) : α := total (vars.map (·.minimum))

/-- The fault of lower bounds above the income, but for the tolerance. -/
def checkMinimums (vars : List (Variable α)) (income : α) : Except (Fault α) Unit :=
  if income + deviationTolerance < sumOfMinimums vars then
    .error (.infeasibleMinimums (sumOfMinimums vars - income))
  else .ok ()

/-- Every variable at its lower bound, and what is left of the income. -/
def startAtMinimums (vars : List (Variable α)) (income : α) :
    Except (Fault α) (List α × α) := do
  checkMinimums vars income
  return (vars.map (·.minimum), greatest 0 (income - sumOfMinimums vars))

/-- Whether amounts respect the bounds of their variables and the income, but for the
tolerance. -/
def nearlyFeasible (vars : List (Variable α)) (income : α) (solution : List α) : Bool :=
  total solution ≤ income + deviationTolerance &&
    (vars.zip solution).all fun p => p.1.nearlyAllows p.2

end

end GoalBudget
