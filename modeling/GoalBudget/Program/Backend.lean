import GoalBudget.Fault
import GoalBudget.Program.Basic

/-!
# Solvers as conversation partners

A program is handed to a solver statement by statement: objective, bounds, binary columns and rows,
then the request to solve, then the release. This is the pluggable backend of section 6 of the
specification. A `Backend` is any solver that can be spoken to like this; what it says may depend on
everything said to it before, and it may refuse a statement.

`Backend.run` makes statements in order, solves and releases. Whatever happens, the release comes
last and only once; the trace of the run shows it. A refusal ends the statements, and what was
refused is the answer of the run.

There are two solvers in the library, the simplex method and a command outside it, and
`Backend.scripted` is one that knows its answer beforehand. Whether there is a backend at all is up
to whoever allocates: the strategies are given a function from the number of columns to a backend,
or to none.

`Program.ofCalls` is the program that a list of statements describes, whoever hears them.
-/

namespace GoalBudget

/-- A statement about a program. -/
inductive Call (α : Type) where
  /-- The objective and its sense. -/
  | objective (coeffs : List α) (maximize : Bool)
  | row (row : Row α)
  | bounds (column : Int) (lower : α) (upper : Limit α)
  /-- A column is zero or one. -/
  | binary (column : Int)

/-- What happens to a backend. -/
inductive Event (α : Type) where
  | call (call : Call α)
  | solve
  /-- The backend is let go. -/
  | release

/-- A solver: how it takes a statement and how it answers, given the statements it took before. -/
structure Backend (α : Type) where
  name : String
  /-- Whether it takes a statement. -/
  accept : List (Call α) → Call α → Except (Fault α) Unit
  /-- What it answers. -/
  solve : List (Call α) → Except (Fault α) (Answer α)

/-- A run of a backend: its answer and everything that happened to it. -/
structure Run (α : Type) where
  /-- The answer, or what went wrong. -/
  answer : Except (Fault α) (Answer α)
  /-- What happened, in order. -/
  trace : List (Event α)

/-- A backend that was created, with its number of columns, and what happened to it. -/
structure Session (α : Type) where
  /-- The number of columns it was created for. -/
  columns : Nat
  /-- What happened, in order. -/
  trace : List (Event α)

namespace Backend

variable {α : Type}

/-- The run of a backend that has taken some statements and is to hear some more. -/
def runFrom (b : Backend α) (taken : List (Call α)) : List (Call α) → Run α
  | [] => ⟨b.solve taken, [.solve, .release]⟩
  | c :: rest =>
    match b.accept taken c with
    | .error fault => ⟨.error fault, [.call c, .release]⟩
    | .ok () =>
      let later := b.runFrom (taken ++ [c]) rest
      ⟨later.answer, .call c :: later.trace⟩

/-- Statements made in order, then solving, then the release, which also follows at once
when a statement is refused. -/
def run (b : Backend α) (calls : List (Call α)) : Run α := b.runFrom [] calls

/-- A backend that takes every statement and always gives the same status and solution,
with zeros appended to the solution up to the number of columns. -/
def scripted [Scalar α] (status : Status) (solution : List α) (columns : Nat) : Backend α where
  name := "scripted"
  accept _ _ := .ok ()
  solve _ :=
    .ok ⟨status, solution ++ List.replicate (columns - solution.length) 0, none, 0⟩

end Backend

variable {α : Type}

/-- A row from the sign of its relation, or the fault of an unknown sign. -/
def Call.row? (coeffs : List α) (sign : String) (rhs : α) : Except (Fault α) (Call α) :=
  match Relation.ofSign? sign with
  | none => .error (.unknownRelation sign)
  | some relation => .ok (.row ⟨coeffs, relation, rhs⟩)

/-- The program that a sequence of statements describes. Statements about columns that do not
exist change nothing. -/
def Program.ofCalls [Scalar α] (n : Nat) (calls : List (Call α)) : Program α :=
  calls.foldl
    (fun p call =>
      match call with
      | .objective coeffs maximize => p.withObjective coeffs maximize
      | .row row => p.addRow row
      | .bounds column lower upper =>
        if column < 0 then p else p.withBounds column.toNat lower upper
      | .binary column => if column < 0 then p else p.withBinary column.toNat)
    (.blank n)

end GoalBudget
