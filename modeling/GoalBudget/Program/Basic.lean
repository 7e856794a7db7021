import GoalBudget.Names
import GoalBudget.Number.Limit

/-!
# Linear programs

A program has columns with bounds, some of them restricted to whole numbers, an objective with a
sense, and rows. `Program.Feasible` and `Program.IsOptimal` say what the points and the solutions of
a program are, independently of any solver.

Section 4.2 of the specification has these programs with inequalities in both directions, equations,
and bounds for every column, and section 4.3 adds the binary columns. A blank program asks for
nothing: every column is from zero up, as it stays unless bounds are stated for it.

What a solver reports is an `Answer`. It has a solution and an objective only if its status is that
an optimum was found; an iteration count comes with every status.

The coefficients of a form are listed for all columns, and `dot` adds the products from the left. A
form that is about a few columns is written as terms and spread over the columns (`sparse`).
-/

namespace GoalBudget

/-- One unknown of a program. -/
structure Column (α : Type) where
  lower : α
  upper : Limit α
  integral : Bool

/-- One linear condition on the columns. -/
structure Row (α : Type) where
  /-- One coefficient per column. -/
  coeffs : List α
  /-- How the left side relates to the right side. -/
  relation : Relation
  rhs : α

/-- A linear program. -/
structure Program (α : Type) where
  columns : List (Column α)
  /-- One objective coefficient per column. -/
  objective : List α
  /-- Whether the objective is to be as large as possible, rather than as small. -/
  maximize : Bool
  rows : List (Row α)

/-- What a solver reports. -/
structure Answer (α : Type) where
  status : Status
  /-- One value per column if the run was optimal, else nothing. -/
  solution : List α
  /-- The objective of the solution. -/
  objective : Option α
  iterations : Nat

section
variable {α : Type} [Scalar α]

/-- The value of a linear form: products added from the left. -/
def dot (coeffs values : List α) : α := total (List.zipWith (· * ·) coeffs values)

/-- A list of `n` zeros but for some places. -/
def sparse (n : Nat) (terms : List (Nat × α)) : List α :=
  terms.foldl (fun cells t => cells.set t.1 t.2) (List.replicate n 0)

/-- The place among `n` that a number stands for; a negative number counts from the end. -/
def placeOf? (n : Nat) (number : Int) : Option Nat :=
  let place := if number < 0 then number + n else number
  if 0 ≤ place ∧ place < n then some place.toNat else none

/-- Whether two amounts stand in a relation. -/
def Relation.Holds : Relation → α → α → Prop
  | .atMost, a, b => a ≤ b
  | .atLeast, a, b => b ≤ a
  | .equal, a, b => a = b

/-- Whether a value respects a limit. -/
def Limit.Allows : Limit α → α → Prop
  | .upTo bound, a => a ≤ bound
  | .endless, _ => True

/-- Whether a point satisfies a row. -/
def Row.Holds (r : Row α) (point : List α) : Prop := r.relation.Holds (dot r.coeffs point) r.rhs

/-- Whether a value is allowed in a column. -/
def Column.Allows (c : Column α) (x : α) : Prop :=
  c.lower ≤ x ∧ c.upper.Allows x ∧ (c.integral = true → ∃ n : Int, Scalar.ofInt? n = some x)

namespace Program

/-- The program over `n` columns that asks for nothing: no row, objective zero, every
column from zero up. -/
def blank (n : Nat) : Program α where
  columns := List.replicate n ⟨0, .unbounded, false⟩
  objective := List.replicate n 0
  maximize := false
  rows := []

/-- How many columns there are. -/
def size (p : Program α) : Nat := p.columns.length

/-- The program with another objective. -/
def withObjective (p : Program α) (coeffs : List α) (maximize : Bool) : Program α :=
  { p with objective := coeffs, maximize }

/-- The program with one more row at the end. -/
def addRow (p : Program α) (row : Row α) : Program α := { p with rows := p.rows ++ [row] }

/-- The program with other bounds on a column. -/
def withBounds (p : Program α) (column : Nat) (lower : α) (upper : Limit α) : Program α :=
  { p with columns := p.columns.modify column fun c => { c with lower, upper } }

/-- The program with a column that is zero or one. -/
def withBinary (p : Program α) (column : Nat) : Program α :=
  { p with columns := p.columns.modify column fun _ => ⟨0, .upTo 1, true⟩ }

/-- Whether a point satisfies every bound and every row. -/
def Feasible (p : Program α) (point : List α) : Prop :=
  point.length = p.size ∧ (∀ pair ∈ p.columns.zip point, pair.1.Allows pair.2) ∧
    ∀ row ∈ p.rows, row.Holds point

/-- The objective of a point. -/
def value (p : Program α) (point : List α) : α := dot p.objective point

/-- Whether one objective is at least as good as another. -/
def AsGood (p : Program α) (a b : α) : Prop := if p.maximize then b ≤ a else a ≤ b

/-- Whether a point is feasible and no feasible point has a better objective. -/
def IsOptimal (p : Program α) (point : List α) : Prop :=
  p.Feasible point ∧ ∀ other, p.Feasible other → p.AsGood (p.value point) (p.value other)

end Program

end

end GoalBudget
