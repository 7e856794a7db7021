import GoalBudget.Budget.Items
import GoalBudget.Record.Datum

/-!
# Fields of records

A record is a ledger of data by field name. A reader of a kind of record first checks the names: all
required fields are there, and nothing is there that is neither required nor optional. Then it reads
the fields one after the other, an optional one with the value that stands in for it.

The order of the reads is part of the behaviour, since the first one that fails decides about the
fault. Amounts that must not be negative are checked as they are read and name their field
(`Fields.nonNegative`).

Ledgers and lists are read item by item with the reader of their items (`Fields.ledger`,
`Fields.list`).
-/

namespace GoalBudget

namespace Fields

/-- Whether the required fields are there, and no others than these and the optional ones. -/
def check (f : Fields) (required optional : List String) : Except (Fault Float) Unit :=
  if required.all f.contains && f.keys.all (required ++ optional).contains then .ok ()
  else .error .malformed

/-- The value of a field read in some way, or what stands in for it. -/
def read {β : Type} (f : Fields) (name : String) (reader : Datum → Except (Fault Float) β)
    (standIn : β) : Except (Fault Float) β :=
  (f.get? name).elim (.ok standIn) reader

/-- The amount in a field. -/
def amount (f : Fields) (name : String) (standIn : Float) : Except (Fault Float) Float :=
  f.read name Datum.readAmount standIn

/-- The amount in a field that must not be negative. -/
def nonNegative (f : Fields) (field : Field) (name : String) (standIn : Float) :
    Except (Fault Float) Float := do
  let x ← f.amount name standIn
  let _ ← requireNonNegative field x
  return x

/-- The whole number in a field. -/
def whole (f : Fields) (name : String) (standIn : Int) : Except (Fault Float) Int :=
  f.read name Datum.readWhole standIn

/-- The text in a field. -/
def text (f : Fields) (name : String) (standIn : String) : Except (Fault Float) String :=
  f.read name Datum.readText standIn

/-- Whether a field counts as a yes. -/
def flag (f : Fields) (name : String) : Bool := (f.get? name).any Datum.isTruthy

/-- The list in a field, each of its items read in some way. -/
def list {β : Type} (f : Fields) (name : String) (reader : Datum → Except (Fault Float) β) :
    Except (Fault Float) (List β) := do
  (← f.read name Datum.readList []).mapM reader

/-- The record in a field, each of its entries read in some way. -/
def ledger {β : Type} (f : Fields) (name : String) (reader : Datum → Except (Fault Float) β) :
    Except (Fault Float) (Ledger β) := do
  let entries := (← f.read name Datum.readRecord ∅).entries
  return .ofList (← entries.mapM fun e => do return (e.1, ← reader e.2))

end Fields

end GoalBudget
