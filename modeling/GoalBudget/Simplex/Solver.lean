import GoalBudget.Program.Backend
import GoalBudget.Simplex.Standard

/-!
# The two-phase simplex method

A program without binary columns is solved in two phases, as section 4.2 of the specification has
it. In order:

* a program without columns has the empty solution;
* a column whose upper bound is below its lower bound, by more than the tolerance, makes the program
  infeasible;
* without rows every column is set on its own (`solveByBounds`);
* otherwise the first phase starts from the standard form and brings the sum of the artificial
  columns to zero. If it stays above zero the program is infeasible; what counts as zero there is
  scaled by the largest right side (`feasibilityTolerance`);
* artificial columns that are still basic are exchanged where possible (`driveOut`), and the second
  phase follows the true objective, with the artificial columns left out of the choice
  (`secondPhase`).

Both phases together may make `maxPivots` pivots, and the second one gets what the first one left.
The exchanges in between are not counted.

The solution is held within the bounds before it is reported (`withinBounds`), and the objective is
computed from the reported values and not from the tableau. A run that ends any other way than with
an optimum reports no solution at all.

Statements are checked when they are made (`check`): the number of coefficients, the range of the
column, a finite lower bound. Binary columns are refused. The record that keeps these settings
between calls is `Simplex`; as a backend with the default settings it is `backend`.
-/

namespace GoalBudget

/-- A program for the simplex method and the settings of its run. -/
structure Simplex (α : Type) where
  program : Program α
  /-- How many pivots both phases may make together. -/
  maxPivots : Int
  /-- What counts as zero among costs and coefficients. -/
  tolerance : α

namespace Simplex

variable {α : Type} [Scalar α]

/-- A blank program with given settings, or the fault of a negative number of columns. -/
def make (columns : Int) (maxPivots : Int) (tolerance : α) : Except (Fault α) (Simplex α) :=
  if columns < 0 then .error .negativeColumnCount
  else .ok ⟨.blank columns.toNat, maxPivots, tolerance⟩

/-- A blank program with the default settings. -/
def blank (n : Nat) : Simplex α := ⟨.blank n, 1000, 1e-9⟩

/-- The number of columns. -/
def size (s : Simplex α) : Nat := s.program.size

/-- Whether a list has one coefficient per column. -/
def checkCoeffs (n : Nat) (coeffs : List α) : Except (Fault α) Unit :=
  if coeffs.length = n then .ok () else .error (.coefficientCount n coeffs.length)

/-- Whether a statement can be taken by a program of `n` columns. -/
def check (n : Nat) : Call α → Except (Fault α) Unit
  | .objective coeffs _ => checkCoeffs n coeffs
  | .row row => checkCoeffs n row.coeffs
  | .bounds column lower _ =>
    if ¬(0 ≤ column ∧ column < n) then .error (.columnOutOfRange column n)
    else if Scalar.isFinite lower then .ok ()
    else .error .infiniteLowerBound
  | .binary _ => .error .binaryUnsupported

/-- A statement taken or refused; a refused one changes nothing. -/
def call (s : Simplex α) (c : Call α) : Except (Fault α) (Simplex α) := do
  check s.size c
  match c with
  | .objective coeffs maximize =>
    return { s with program := s.program.withObjective coeffs maximize }
  | .row row => return { s with program := s.program.addRow row }
  | .bounds column lower upper =>
    return { s with program := s.program.withBounds column.toNat lower upper }
  | .binary _ => return s

/-- The rows dropped; objective and bounds stay. -/
def release (s : Simplex α) : Simplex α := { s with program := { s.program with rows := [] } }

/-- The answer of a run that did not end with a solution. -/
def stopped (status : Status) (pivots : Nat) : Answer α := ⟨status, [], none, pivots⟩

/-- The answer of a run that ended with a solution. -/
def solved (p : Program α) (solution : List α) (pivots : Nat) : Answer α :=
  ⟨.optimal, solution, some (p.value solution), pivots⟩

/-- The best value of a column on its own, if there is one. -/
def bestInBounds (maximize : Bool) (coeff : α) (column : Column α) : Option α :=
  let gain := if maximize then coeff else -coeff
  if 0 < gain then
    match column.upper with
    | .upTo bound => if isInfinite bound then none else some bound
    | .endless => none
  else some column.lower

/-- A program without rows: every column on its own. -/
def solveByBounds (p : Program α) : Answer α :=
  match (p.objective.zip p.columns).mapM fun c => bestInBounds p.maximize c.1 c.2 with
  | none => stopped .unbounded 0
  | some solution => solved p solution 0

/-- The first of the program's own and slack columns whose coefficient is large enough to
pivot on. -/
def exchangeColumn? (l : Layout) (tolerance : α) (line : Line α) : Option Nat :=
  ((line.cells.take l.artificialStart).zipIdx.find? fun c => tolerance < magnitude c.1).map (·.2)

/-- Artificial columns that are still basic exchanged where possible, from line `row` on. -/
def driveOut (l : Layout) (tolerance : α) (row : Nat) :
    Nat → Tableau α → Except (Fault α) (Tableau α)
  | 0, t => .ok t
  | count + 1, t => do
    match t.lines[row]? with
    | none => return t
    | some line =>
      if l.artificialStart ≤ line.basic then
        match exchangeColumn? l tolerance line with
        | none => driveOut l tolerance (row + 1) count t
        | some column => driveOut l tolerance (row + 1) count (← t.pivot row column)
      else driveOut l tolerance (row + 1) count t

/-- The objective of the program as a cost to be made small, with the basic columns expressed
in the others. -/
def trueCost (p : Program α) (l : Layout) (lines : List (Line α)) : Cost α :=
  let sign : α := if p.maximize then -1 else 1
  let cost : Cost α :=
    ⟨p.objective.map (sign * ·) ++ List.replicate (l.width - l.own) 0, 0⟩
  lines.foldl (fun c line => c.eliminate line line.basic) cost

/-- The distances from the lower bounds turned into values, held within the bounds. -/
def withinBounds (columns : List (Column α)) (distances : List α) : List α :=
  List.zipWith (fun c y => c.upper.hold (greatest (c.lower + y) c.lower)) columns distances

/-- What counts as zero for the sum of the artificial columns: the tolerance, scaled by the
largest right side. -/
def feasibilityTolerance (tolerance : α) (rows : List (Row α)) : α :=
  tolerance * (rows.map (magnitude ·.rhs)).foldl greatest 1

/-- The second phase, from a tableau without artificial columns in use. -/
def secondPhase (s : Simplex α) (l : Layout) (made : Nat) (t : Tableau α) :
    Except (Fault α) (Answer α) := do
  let start : Tableau α := { t with cost := trueCost s.program l t.lines }
  let stop ← start.iterate s.tolerance l.artificialStart made (s.maxPivots - made).toNat
  if stop.status ≠ .optimal then return stopped stop.status stop.pivots
  return solved s.program
    (withinBounds s.program.columns (stop.tableau.basicPoint l.own)) stop.pivots

/-- Both phases, for a program with rows. -/
def solveByPivots (s : Simplex α) : Except (Fault α) (Answer α) := do
  let rows := standardRows s.program
  let l := layout s.size rows
  let stop ← (firstTableau l rows).iterate s.tolerance l.width 0 s.maxPivots.toNat
  if stop.status ≠ .optimal then return stopped stop.status stop.pivots
  if feasibilityTolerance s.tolerance rows < -stop.tableau.cost.rhs then
    return stopped .infeasible stop.pivots
  let t ← driveOut l s.tolerance 0 rows.length stop.tableau
  s.secondPhase l stop.pivots t

/-- The answer to a program. -/
def solve (s : Simplex α) : Except (Fault α) (Answer α) :=
  if s.size = 0 then .ok ⟨.optimal, [], some 0, 0⟩
  else if s.program.columns.any fun c => c.upper.fallsBelow (c.lower - s.tolerance) then
    .ok (stopped .infeasible 0)
  else if s.program.rows.isEmpty then .ok (solveByBounds s.program)
  else s.solveByPivots

/-- The simplex method as a backend of `n` columns. -/
def backend (n : Nat) : Backend α where
  name := "simplex"
  accept _ c := check n c
  solve taken := ({ blank n with program := Program.ofCalls n taken } : Simplex α).solve

end Simplex

end GoalBudget
