import GoalBudget.Fault
import GoalBudget.Ledger
import GoalBudget.Strategy.Priority
import GoalBudget.Text.Decimal

/-!
# Data

Records come from outside as loosely typed data, and go out as such. A datum is read as what a field
needs, or it is malformed. Whole numbers and flags count as amounts too, and the amounts beyond all
numbers are given as words.

A datum is one of few kinds, and lists and records are made of data again (`Datum`). The readers are
partial in the same way everywhere: they take what can stand for the kind asked for and refuse the
rest with one fault, which says nothing about where the datum was (section 7 of the specification).

The writers go the other way and never fail. An amount that is no number is kept as an amount.
-/

namespace GoalBudget

/-- A piece of data from outside or for it. -/
inductive Datum where
  | null
  | flag (value : Bool)
  | whole (value : Int)
  | amount (value : Float)
  | text (value : String)
  /-- Several data. -/
  | list (items : List Datum)
  /-- Data under names. -/
  | record (fields : List (String × Datum))

/-- The fields of a record. -/
abbrev Fields := Ledger Datum

namespace Datum

/-- The amount that a word stands for. -/
def wordAmount? : String → Option Float
  | "inf" => some (1.0 / 0.0)
  | "-inf" => some (-1.0 / 0.0)
  | "nan" => some (0.0 / 0.0)
  | _ => none

/-- The datum as an amount. -/
def readAmount : Datum → Except (Fault Float) Float
  | amount x => .ok x
  | whole n => ofWhole n
  | flag b => .ok (if b then 1 else 0)
  | text word => (wordAmount? word).elim (.error .malformed) .ok
  | _ => .error .malformed

/-- The datum as a whole number. -/
def readWhole : Datum → Except (Fault Float) Int
  | whole n => .ok n
  | flag b => .ok (if b then 1 else 0)
  | _ => .error .malformed

/-- The datum as a text. Numbers, flags and nothing have texts too. -/
def readText : Datum → Except (Fault Float) String
  | text s => .ok s
  | whole n => .ok (toString n)
  | amount x => .ok (Text.shortestText x)
  | flag b => .ok (if b then "True" else "False")
  | null => .ok "None"
  | _ => .error .malformed

/-- The datum as a list. -/
def readList : Datum → Except (Fault Float) (List Datum)
  | list items => .ok items
  | _ => .error .malformed

/-- The datum as a record. -/
def readRecord : Datum → Except (Fault Float) Fields
  | record fields => .ok (.ofList fields)
  | _ => .error .malformed

/-- Whether the datum counts as a yes: everything but nothing, no, zero and what is empty. -/
def isTruthy : Datum → Bool
  | null => false
  | flag b => b
  | whole n => n != 0
  | amount x => isNonzero x
  | text s => !s.isEmpty
  | list items => !items.isEmpty
  | record fields => !fields.isEmpty

/-- A natural number. -/
def nat (n : Nat) : Datum := whole n

/-- Several amounts. -/
def amounts (xs : List Float) : Datum := list (xs.map amount)

/-- Several texts. -/
def texts (xs : List String) : Datum := list (xs.map text)

/-- A ledger, each of its entries written in some way. -/
def ofLedger {β : Type} (writer : β → Datum) (l : Ledger β) : Datum :=
  record (l.entries.map fun e => (e.1, writer e.2))

/-- What may be there, written in some way, or nothing. -/
def ofOption {β : Type} (writer : β → Datum) (x : Option β) : Datum := x.elim null writer

end Datum

end GoalBudget
