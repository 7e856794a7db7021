/-!
# Names

Three families of alternatives occur in faults and in what is read and written, so each of them has
a list of all its members, a name for every member, and a search by name: the shapes of satisfaction
curves (section 3 of the specification), the relations of a row (section 6), and the ways in which a
run of a solver ends (section 4.2).

A name that belongs to no shape or relation is not accepted, and what is wrong is a `Fault`. Ways
to end are open instead: a foreign solver may report one of its own, and that is kept by its name
(`Status.other`).
-/

namespace GoalBudget

/-! ## Shapes of satisfaction curves -/

/-- The family of a satisfaction curve. -/
inductive Shape where
  /-- One rising line. -/
  | linear
  /-- Rising to a peak and falling again. -/
  | triangular
  /-- Rising to a plateau and falling again. -/
  | trapezoidal
  /-- Any chain of rising lines. -/
  | piecewise
  /-- A sigmoid drawn in lines. -/
  | sCurve
  deriving DecidableEq, Repr

namespace Shape

/-- All shapes. -/
def all : List Shape := [linear, triangular, trapezoidal, piecewise, sCurve]

/-- The name of a shape. -/
def name : Shape → String
  | linear => "linear"
  | triangular => "triangular"
  | trapezoidal => "trapezoidal"
  | piecewise => "piecewise"
  | sCurve => "s-curve"

/-- The shape with a given name. -/
def ofName? (name : String) : Option Shape := all.find? fun s => s.name == name

/-- Whether satisfaction never falls as the amount grows. -/
def isMonotone : Shape → Bool
  | linear | piecewise | sCurve => true
  | triangular | trapezoidal => false

end Shape

/-! ## Relations of rows -/

/-- How the two sides of a row relate. -/
inductive Relation where
  | atMost
  | atLeast
  | equal
  deriving DecidableEq, Repr

namespace Relation

/-- All relations. -/
def all : List Relation := [atMost, atLeast, equal]

/-- The sign of a relation. -/
def sign : Relation → String
  | atMost => "<="
  | atLeast => ">="
  | equal => "="

/-- The relation with a given sign. -/
def ofSign? (sign : String) : Option Relation := all.find? fun r => r.sign == sign

/-- The relation between the two sides after both change their sign. -/
def flip : Relation → Relation
  | atMost => atLeast
  | atLeast => atMost
  | equal => equal

end Relation

/-! ## How a run ended -/

/-- How a run of a solver ended. -/
inductive Status where
  /-- A best solution was found. -/
  | optimal
  /-- No point satisfies the program. -/
  | infeasible
  /-- Feasible points have arbitrarily good objectives. -/
  | unbounded
  /-- The allowed number of steps was used up. -/
  | iterationLimit
  /-- The solver broke down. -/
  | failed
  /-- A status known by its name only. -/
  | other (name : String)
  deriving DecidableEq, Repr

namespace Status

/-- The name of a status. -/
def text : Status → String
  | optimal => "Optimal"
  | infeasible => "Infeasible"
  | unbounded => "Unbounded"
  | iterationLimit => "Iteration Limit"
  | failed => "Error"
  | other name => name

/-- The statuses that have names of their own here. -/
def known : List Status := [optimal, infeasible, unbounded, iterationLimit, failed]

/-- The status with a given name. -/
def ofText (name : String) : Status :=
  (known.find? fun s => s.text == name).getD (other name)

end Status

end GoalBudget
