import GoalBudget.Fault
import GoalBudget.Program.Basic

/-!
# Simplex tableaus

A tableau is a system of equations in canonical form: every line is solved for one basic column, and
the cost line is expressed in the others. `Tableau.pivot` exchanges one basic column for another,
and `Tableau.iterate` pivots while the cost can still fall. The rules are those of section 4.2 of
the specification:

* the column that enters is the first one of the most negative cost, if that is below minus the
  tolerance (`Tableau.entering?`);
* the line that leaves is the one of the least ratio among the lines whose coefficient exceeds the
  tolerance. A ratio counts as equal when it is within the tolerance, and then the line of the
  smaller basic column wins (`Tableau.leaving?`);
* a run stops when no column enters, when a column enters that no line bounds, or when the pivots
  are used up. The last is only found out when one more pivot would be made, so a run that ends with
  its last pivot is optimal.

The cost line holds the negative of the objective, so that it is changed by the same operation as
any other line. A coefficient that is zero is not taken off: no arithmetic is done there, and none
can round.

Two operations can fail on their own terms, a position outside the lines and a division by zero.
Both are kept as faults; that neither happens to a solver is proved and not assumed.
-/

namespace GoalBudget.Simplex

/-- One equation: coefficients, right side, and the column it is solved for. -/
structure Line (α : Type) where
  /-- The column the equation is solved for. -/
  basic : Nat
  /-- One coefficient per column. -/
  cells : List α
  rhs : α

/-- The objective: reduced costs and the negative of the current value. -/
structure Cost (α : Type) where
  /-- One reduced cost per column. -/
  cells : List α
  /-- The negative of the objective at the current basic point. -/
  rhs : α

/-- Equations in canonical form with an objective. -/
structure Tableau (α : Type) where
  lines : List (Line α)
  cost : Cost α

variable {α : Type} [Scalar α]

/-- The coefficient in a column. -/
def Line.coeff (l : Line α) (column : Nat) : α := l.cells.getD column 0

/-- The reduced cost of a column. -/
def Cost.coeff (c : Cost α) (column : Nat) : α := c.cells.getD column 0

/-- A multiple of one list of coefficients taken off another. -/
def takeOff (factor : α) (cells from_ : List α) : List α :=
  List.zipWith (fun a b => a - factor * b) from_ cells

/-- A line made to have coefficient one in a column, for which it is solved. -/
def Line.normalize (l : Line α) (column : Nat) : Line α :=
  let p := l.coeff column
  ⟨column, l.cells.map (· / p), l.rhs / p⟩

/-- A column removed from a line by taking off a multiple of the pivot line. -/
def Line.eliminate (pivot : Line α) (column : Nat) (l : Line α) : Line α :=
  let factor := l.coeff column
  if isNonzero factor then
    { l with cells := takeOff factor pivot.cells l.cells, rhs := l.rhs - factor * pivot.rhs }
  else l

/-- A column removed from the cost by taking off a multiple of a line. -/
def Cost.eliminate (line : Line α) (column : Nat) (c : Cost α) : Cost α :=
  let factor := c.coeff column
  if isNonzero factor then
    ⟨takeOff factor line.cells c.cells, c.rhs - factor * line.rhs⟩
  else c

namespace Tableau

/-- A line solved for a column, and the column removed from all other lines and the cost. -/
def pivot (t : Tableau α) (row column : Nat) : Except (Fault α) (Tableau α) :=
  match t.lines[row]? with
  | none => .error .positionOutOfRange
  | some line =>
    if line.coeff column == 0 then .error .divisionByZero
    else
      let pivotLine := line.normalize column
      .ok
        { lines := t.lines.mapIdx fun i l =>
            if i = row then pivotLine else pivotLine.eliminate column l
          cost := t.cost.eliminate pivotLine column }

/-- The first column of the least reduced cost, if that is below `-tolerance`. Only the
first `allowed` columns are looked at. -/
def entering? (t : Tableau α) (tolerance : α) (allowed : Nat) : Option Nat :=
  ((t.cost.cells.take allowed).zipIdx.foldl
    (fun (best : Option Nat × α) cell => if cell.1 < best.2 then (some cell.2, cell.1) else best)
    (none, -tolerance)).1

/-- A line that may leave the basis, with its ratio. -/
structure Candidate (α : Type) where
  row : Nat
  /-- The column it is solved for. -/
  basic : Nat
  /-- The value at which its basic column reaches zero. -/
  ratio : α

/-- Whether a line is a better choice than the best one so far. -/
def Candidate.beats (tolerance : α) (new : Candidate α) : Option (Candidate α) → Bool
  | none => ((Limit.unbounded : Limit α).minus tolerance).exceeds new.ratio
  | some best =>
    new.ratio < best.ratio - tolerance ||
      (magnitude (new.ratio - best.ratio) ≤ tolerance && new.basic < best.basic)

/-- The better one of the best line so far and the next one, if its coefficient is large
enough to divide by. -/
def consider (tolerance : α) (column : Nat) (best : Option (Candidate α)) (entry : Line α × Nat) :
    Except (Fault α) (Option (Candidate α)) :=
  let p := entry.1.coeff column
  if tolerance < p then
    if p == 0 then .error .divisionByZero
    else
      let new : Candidate α := ⟨entry.2, entry.1.basic, entry.1.rhs / p⟩
      .ok (if new.beats tolerance best then some new else best)
  else .ok best

/-- The line that leaves the basis when a column enters it, if some line bounds the column. -/
def leaving? (t : Tableau α) (tolerance : α) (column : Nat) :
    Except (Fault α) (Option Nat) := do
  let best ← t.lines.zipIdx.foldlM (consider tolerance column) none
  return best.map (·.row)

/-- Where a run of pivots stopped. -/
structure Stop (α : Type) where
  /-- Why it stopped. -/
  status : Status
  tableau : Tableau α
  pivots : Nat

/-- Pivots while the cost can fall, at most `budget` of them. -/
def iterate (tolerance : α) (allowed : Nat) (made : Nat) :
    Nat → Tableau α → Except (Fault α) (Stop α)
  | 0, t =>
    match t.entering? tolerance allowed with
    | none => .ok ⟨.optimal, t, made⟩
    | some _ => .ok ⟨.iterationLimit, t, made⟩
  | budget + 1, t =>
    match t.entering? tolerance allowed with
    | none => .ok ⟨.optimal, t, made⟩
    | some column => do
      match ← t.leaving? tolerance column with
      | none => return ⟨.unbounded, t, made⟩
      | some row => iterate tolerance allowed (made + 1) budget (← t.pivot row column)

/-- The values of the first `n` columns at the current basic point. -/
def basicPoint (t : Tableau α) (n : Nat) : List α :=
  t.lines.foldl (fun point l => point.set l.basic l.rhs) (List.replicate n 0)

end Tableau

end GoalBudget.Simplex
