import GoalBudget.Program.Backend

/-!
# Solver commands

A solver that is a command outside the library. The statements are collected, the program is handed
over sparse (zero coefficients left out), and the command sets values of the columns that it knows:
those that occur in the program, and those that occurred in one it was handed before. A value stays
until it is set again, and a column without one counts as zero in the solution. This is the adapter
to an external solver of section 2 of the specification; the command itself is not part of the
library, and it is a parameter wherever it matters (`Command.backend`).

A command takes no objective without columns. A column fixed at zero stands in for them; it never
gets a value. What is reported as the objective is read off the columns of the objective that was
set, so it is missing if there are none.

The number of coefficients is checked for objectives and rows, the existence of a column for bounds
and binary columns, and whether the command has been let go before everything else. The sense of an
objective is noted before its coefficients are counted.
-/

namespace GoalBudget

variable {α : Type}

/-- A column of a command's program with the value that the command gave it last. -/
structure ValuedColumn (α : Type) extends Column α where
  /-- The value given last, if any was. -/
  value : Option α
  /-- Whether the column occurred in a program that the command has dealt with. -/
  isKnown : Bool

/-- A row as handed to a command. -/
structure SparseRow (α : Type) where
  /-- The columns with nonzero coefficients. -/
  terms : List (Nat × α)
  /-- How the left side relates to the right side. -/
  relation : Relation
  rhs : α

/-- A program as handed to a command. -/
structure SparseProgram (α : Type) where
  /-- Whether the objective is to be as large as possible. -/
  maximize : Bool
  /-- The columns with nonzero objective coefficients. -/
  objective : List (Nat × α)
  /-- The coefficient of the column that stands in, if the objective has no other. -/
  standIn : Option α
  rows : List (SparseRow α)

/-- What a command reports: a status, and for every column a value if it sets one. -/
structure Outcome (α : Type) where
  status : Status
  /-- The values it sets. -/
  values : List (Option α)

/-- A program under construction for a command. -/
structure Command (α : Type) where
  /-- The number of coefficients that a row must have. -/
  size : Int
  /-- The columns; none are left after the release. -/
  columns : List (ValuedColumn α)
  /-- The objective, once there is one. -/
  objective : Option (List α)
  /-- The coefficient that a column standing in has kept in the objective, if there is one. -/
  standIn : Option α
  /-- Whether the objective is to be as large as possible. -/
  maximize : Bool
  /-- The conditions, in the order of their statement. -/
  rows : List (Row α)
  /-- Whether the command was let go. -/
  isReleased : Bool

namespace Command

variable [Scalar α]

/-- The name of the command that solves programs by default. -/
def defaultName : String := "PULP_CBC_CMD"

/-- A fresh program of `n` columns; of none if `n` is negative, and then no row fits it. -/
def blank (n : Int) : Command α :=
  ⟨n, List.replicate n.toNat ⟨⟨0, .unbounded, false⟩, none, false⟩, none, none, false, [], false⟩

/-- A column changed, or the fault that it does not exist. -/
def change (c : Command α) (column : Int) (f : ValuedColumn α → ValuedColumn α) :
    Command α × Except (Fault α) Unit :=
  match placeOf? c.columns.length column with
  | none => (c, .error .positionOutOfRange)
  | some i => ({ c with columns := c.columns.modify i f }, .ok ())

/-- A statement taken or refused. The sense of an objective is noted before its coefficients
are counted, so it stays also when they are refused. -/
def call (c : Command α) : Call α → Command α × Except (Fault α) Unit
  | .objective coeffs maximize =>
    if c.isReleased then (c, .error .released)
    else if coeffs.length ≠ c.size then
      ({ c with maximize }, .error (.coefficientCount c.size coeffs.length))
    else ({ c with maximize, objective := some coeffs, standIn := none }, .ok ())
  | .row row =>
    if c.isReleased then (c, .error .released)
    else if row.coeffs.length ≠ c.size then
      (c, .error (.coefficientCount c.size row.coeffs.length))
    else ({ c with rows := c.rows ++ [row] }, .ok ())
  | .bounds column lower upper =>
    c.change column fun x =>
      { x with lower, upper := if upper.isEndless then .endless else upper }
  | .binary column =>
    c.change column fun x => { x with lower := 0, upper := .upTo 1, integral := true }

/-- The command let go: its columns are gone and it takes nothing more. -/
def release (c : Command α) : Command α := { c with columns := [], isReleased := true }

/-- The nonzero terms of a linear form. -/
def terms (coeffs : List α) : List (Nat × α) :=
  (coeffs.zipIdx.filter fun t => isNonzero t.1).map fun t => (t.2, t.1)

/-- The columns of the objective. -/
def objectiveTerms (c : Command α) : List (Nat × α) := terms (c.objective.getD [])

/-- The program as it is handed over. -/
def handed (c : Command α) : SparseProgram α where
  maximize := c.maximize
  objective := c.objectiveTerms
  standIn := if c.objectiveTerms.isEmpty then some (c.standIn.getD 1) else none
  rows := c.rows.map fun r => ⟨terms r.coeffs, r.relation, r.rhs⟩

/-- The columns that occur in a program handed over. -/
def occurs (p : SparseProgram α) (column : Nat) : Bool :=
  p.objective.any (·.1 == column) || p.rows.any fun r => r.terms.any (·.1 == column)

/-- The columns that occur in the program noted as known. -/
def notice (c : Command α) : Command α :=
  { c with
    columns := c.columns.mapIdx fun i x => { x with isKnown := x.isKnown || occurs c.handed i } }

/-- The values that a command sets, taken over into the columns that it knows. -/
def record (c : Command α) (values : List (Option α)) : Command α :=
  { c with
    columns := c.columns.mapIdx fun i x =>
      match values[i]? with
      | some (some v) => if x.isKnown then { x with value := some v } else x
      | _ => x }

/-- A column that stood in for an objective stays in it, with a given coefficient if it was not
there before. It leaves no trace where no objective was set. -/
def keepStandIn (c : Command α) (coeff : α) : Command α :=
  if c.objective.isSome && c.objectiveTerms.isEmpty then
    { c with standIn := some (c.standIn.getD coeff) }
  else c

/-- The values of the columns, zero where there is none. -/
def solution (c : Command α) : List α := c.columns.map fun x => x.value.getD 0

/-- The objective of the values: the sum over its columns, if it has any and each has a value. -/
def objectiveValue? (c : Command α) : Option α :=
  match c.objectiveTerms with
  | [] => none
  | terms =>
    terms.foldlM
      (fun sum t => do
        let column ← c.columns[t.1]?
        return sum + (← column.value) * t.2)
      0

/-- The program solved by a command that reports an outcome, or breaks down. After a breakdown
an objective that was never set counts as set to nothing. -/
def solve (c : Command α) (outcome : Option (Outcome α)) :
    Command α × Except (Fault α) (Answer α) :=
  if c.isReleased then (c, .error .released)
  else
    match outcome with
    | none =>
      let c : Command α := { c with objective := some (c.objective.getD []) }
      (c.keepStandIn 1, .ok ⟨.failed, [], none, 0⟩)
    | some o =>
      let c := (c.notice.record o.values).keepStandIn 0
      if o.status ≠ .optimal then (c, .ok ⟨o.status, [], none, 0⟩)
      else if c.objective.isNone then (c, .error .noObjective)
      else (c, .ok ⟨.optimal, c.solution, c.objectiveValue?, 0⟩)

/-- The program after statements, refused ones included. -/
def afterCalls (n : Nat) (calls : List (Call α)) : Command α :=
  calls.foldl (fun c call => (c.call call).1) (blank n)

/-- A command as a backend. -/
def backend (n : Nat) (run : SparseProgram α → Option (Outcome α)) : Backend α where
  name := "pulp-cbc"
  accept taken call := ((afterCalls n taken).call call).2
  solve taken :=
    let c := afterCalls n taken
    (c.solve (run c.handed)).2

end Command

end GoalBudget
