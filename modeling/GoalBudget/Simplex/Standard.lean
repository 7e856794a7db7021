import GoalBudget.Simplex.Tableau

/-!
# Standard form

A program in the form that the first phase starts from (section 4.2 of the specification). Lower
bounds are moved to zero (`shiftRow`) and finite upper bounds become rows (`boundRow`), so the
tableau is about non-negative columns only. Rows are then turned so that no right side is negative
(`orient`); a row that is turned changes its relation along with its signs.

The own columns of the program come first, then one slack column for every inequality, then one
artificial column for every row that has no slack column to start with, which is every row but an
"at most" (`layout`). The rows are gone through in order and take the next free columns
(`firstLines`). The cost of the first phase is the sum of the artificial columns, with those that
are basic already expressed in the others (`artificialCost`).

The rows of the program stand before those of the bounds. The order matters for what is reported,
since ties between lines go by their basic columns.
-/

namespace GoalBudget.Simplex

variable {α : Type} [Scalar α]

/-- A row in terms of the distances from the lower bounds. -/
def shiftRow (lowers : List α) (r : Row α) : Row α := { r with rhs := r.rhs - dot r.coeffs lowers }

/-- The row that keeps a column at its finite upper bound. -/
def boundRow (n : Nat) (entry : Column α × Nat) : Option (Row α) :=
  entry.1.upper.finite?.map fun bound =>
    ⟨(List.replicate n 0).set entry.2 1, .atMost, bound - entry.1.lower⟩

/-- A row turned so that its right side is not negative. -/
def orient (r : Row α) : Row α :=
  if r.rhs < 0 then ⟨r.coeffs.map (-·), r.relation.flip, -r.rhs⟩ else r

/-- The rows over distances from the lower bounds, none with a negative right side. -/
def standardRows (p : Program α) : List (Row α) :=
  let lowers := p.columns.map (·.lower)
  let bounds := p.columns.zipIdx.filterMap (boundRow p.size)
  (p.rows.map (shiftRow lowers) ++ bounds).map orient

/-- Where the extra columns of a tableau lie: slacks start behind the program's own columns,
artificial ones behind the slacks. -/
structure Layout where
  /-- How many columns the program has. -/
  own : Nat
  /-- How many slack columns there are. -/
  slacks : Nat
  /-- How many artificial columns there are. -/
  artificials : Nat

/-- The first artificial column. -/
def Layout.artificialStart (l : Layout) : Nat := l.own + l.slacks

/-- The number of columns of the tableau. -/
def Layout.width (l : Layout) : Nat := l.artificialStart + l.artificials

/-- The layout for rows: an inequality has a slack, all but "at most" an artificial column. -/
def layout (n : Nat) (rows : List (Row α)) : Layout where
  own := n
  slacks := (rows.filter fun r => r.relation != .equal).length
  artificials := (rows.filter fun r => r.relation != .atMost).length

/-- The lines of the first tableau, given the next free slack and artificial columns. -/
def firstLines (l : Layout) (slack artificial : Nat) : List (Row α) → List (Line α)
  | [] => []
  | r :: rest =>
    let cells := r.coeffs ++ List.replicate (l.width - l.own) 0
    match r.relation with
    | .atMost =>
      ⟨slack, cells.set slack 1, r.rhs⟩ :: firstLines l (slack + 1) artificial rest
    | .atLeast =>
      ⟨artificial, (cells.set slack (-1)).set artificial 1, r.rhs⟩ ::
        firstLines l (slack + 1) (artificial + 1) rest
    | .equal =>
      ⟨artificial, cells.set artificial 1, r.rhs⟩ ::
        firstLines l slack (artificial + 1) rest

/-- The cost of the first phase: the sum of the artificial columns, with the basic ones
expressed in the others. -/
def artificialCost (l : Layout) (lines : List (Line α)) : Cost α :=
  let sum : Cost α :=
    ⟨List.replicate l.artificialStart 0 ++ List.replicate l.artificials 1, 0⟩
  lines.foldl
    (fun c line =>
      if l.artificialStart ≤ line.basic then
        ⟨List.zipWith (· - ·) c.cells line.cells, c.rhs - line.rhs⟩
      else c)
    sum

/-- The tableau that the first phase starts from. -/
def firstTableau (l : Layout) (rows : List (Row α)) : Tableau α :=
  let lines := firstLines l l.own l.artificialStart rows
  ⟨lines, artificialCost l lines⟩

end GoalBudget.Simplex
