import GoalBudget.Curve.Pieces
import GoalBudget.Program.Backend

/-!
# Curves as rows of a program

Every goal's curve is cut into lines that cover the range from zero to a bound `M` on all variables.
A binary column per line selects one of them, and rows with `M` as a coefficient tie the goal's
variable `x` to the range of the selected line (section 4.3 of the specification):

* the binary columns of a goal add up to one,
* `x - lower * b ≥ 0`,
* `x + (M - upper) * b ≤ M`.

A membership column `u` is kept below the selected line by `u - slope * x + relax * b ≤ intercept +
relax`, where `relax` is large enough that the rows of the lines not selected say nothing. Making
`u` large then values the curve. It also lies between zero and the highest satisfaction of the
curve.

The columns of a goal are laid behind those in use, the membership column first and then one binary
column per line (`Encoding.addGoal`). The variables come before all of them. Nothing is stated while
goals are added; what is stated is read off the encoding when all goals are in it
(`Encoding.calls`), since a row needs a coefficient for every column.

A line is read back from a solution by the first binary column above one half, not by one that is
exactly one (`Block.activeSegment`): solvers report binary columns with a small error.
-/

namespace GoalBudget

/-- The columns of one goal. -/
structure Block (α : Type) where
  goalId : String
  /-- The column of the goal's variable. -/
  variableColumn : Nat
  /-- The lines of the goal's curve. -/
  segments : List (Segment α)
  /-- The binary column of every line. -/
  indicators : List Nat
  /-- The column of the goal's satisfaction. -/
  membershipColumn : Nat
  /-- The highest satisfaction of the curve. -/
  cap : α
  /-- The objective coefficient of the satisfaction. -/
  weight : α

/-- Blocks of columns behind the columns of the variables. -/
structure Encoding (α : Type) where
  /-- How many columns the variables have. -/
  continuous : Nat
  /-- A bound on every variable. -/
  bigM : α
  blocks : List (Block α)
  /-- The number of columns in use. -/
  width : Nat

namespace Block

variable {α : Type} [Scalar α]

/-- How much the row of a line gives way when the line is not selected. -/
def relax (b : Block α) (bigM : α) (s : Segment α) : α :=
  b.cap + magnitude s.slope * bigM + magnitude s.intercept

/-- The rows of one line with its binary column, in a program of `n` columns. -/
def segmentRows (b : Block α) (n : Nat) (bigM : α) (s : Segment α) (column : Nat) :
    List (Row α) :=
  let x := b.variableColumn
  [ ⟨sparse n [(x, 1), (column, -s.lower)], .atLeast, 0⟩,
    ⟨sparse n [(x, 1), (column, bigM - s.upper)], .atMost, bigM⟩,
    ⟨sparse n [(b.membershipColumn, 1), (x, -s.slope), (column, b.relax bigM s)], .atMost,
      s.intercept + b.relax bigM s⟩ ]

/-- The row that selects one line. -/
def selectorRow (b : Block α) (n : Nat) : Row α :=
  ⟨sparse n (b.indicators.map fun column => (column, 1)), .equal, 1⟩

/-- Everything that is stated about a block in a program of `n` columns. -/
def calls (b : Block α) (n : Nat) (bigM : α) : List (Call α) :=
  [.bounds b.membershipColumn 0 (.upTo b.cap)] ++
    b.indicators.map (fun column => .binary column) ++
    [.row (b.selectorRow n)] ++
    ((b.segments.zip b.indicators).flatMap fun p =>
      (b.segmentRows n bigM p.1 p.2).map .row)

/-- The line whose binary column is set in a solution. -/
def activeSegment (b : Block α) (solution : List α) : Option (Segment α) :=
  ((b.segments.zip b.indicators).find? fun p => (0.5 : α) < solution.getD p.2 0).map (·.1)

end Block

namespace Encoding

variable {α : Type} [Scalar α]

/-- No blocks yet. -/
def blank (continuous : Nat) (bigM : α) : Encoding α := ⟨continuous, bigM, [], continuous⟩

/-- The block of a goal, with columns from `column` on. -/
def blockFrom (column : Nat) (bigM : α) (goalId : String) (variableColumn : Nat) (curve : Curve α)
    (weight : α) : Block α :=
  let segments := curve.decompose bigM
  { goalId, variableColumn, segments, weight
    indicators := List.range' (column + 1) segments.length
    membershipColumn := column
    cap :=
      match segments with
      | [] => 0
      | first :: rest => Curve.largestCap first rest }

/-- One more goal, its columns behind those in use: the membership column, then one binary
column per line. -/
def addGoal (e : Encoding α) (goalId : String) (variableColumn : Nat) (curve : Curve α)
    (weight : α) : Encoding α :=
  let block := blockFrom e.width e.bigM goalId variableColumn curve weight
  { e with blocks := e.blocks ++ [block], width := e.width + 1 + block.segments.length }

/-- The objective coefficients of the membership columns. -/
def objectiveTerms (e : Encoding α) : List (Nat × α) :=
  e.blocks.map fun b => (b.membershipColumn, b.weight)

/-- Everything that is stated about the blocks. -/
def calls (e : Encoding α) : List (Call α) := e.blocks.flatMap fun b => b.calls e.width e.bigM

/-- The line selected for every goal in a solution. -/
def activeSegments (e : Encoding α) (solution : List α) : List (String × Option (Segment α)) :=
  e.blocks.map fun b => (b.goalId, b.activeSegment solution)

end Encoding

end GoalBudget
