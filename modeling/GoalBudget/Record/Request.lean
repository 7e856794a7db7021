import GoalBudget.Record.Budget
import GoalBudget.Review.Report

/-!
# Records of requests

How a request is read (section 6 of the specification). The income has to be there before anything
else is looked at. An item may give its id under the short name `id`; whatever the id is, its text
is the key. The scenario is the name of a preset or a record, and the balanced preset where none is
given.

After the income the four lists of items are read in the order mandatory, flexible, debts, goals,
then the income itself, then the budget is checked, then the scenario. The first fault ends the
reading. Of two items of one list with the same id the later one counts.

What is not known is not an error here: a request may have further fields, while a record of an item
may not.
-/

namespace GoalBudget

/-- The data to go through where a list of items is expected. A text and a record are gone
through too, but none of their parts is a record. -/
def Datum.parts : Datum → Except (Fault Float) (List Datum)
  | .list items => .ok items
  | .text s => .ok (s.toList.map fun c => .text (toString c))
  | .record fields => .ok (fields.map fun f => .text f.1)
  | _ => .error .malformed

namespace Request

/-- An item's fields, with the short name of the id replaced by the full one. -/
def itemFields (idField : String) : Datum → Except (Fault Float) Fields
  | .record fields =>
    .ok (.ofList (fields.map fun f => (if f.1 == "id" then idField else f.1, f.2)))
  | _ => .error .notARecord

/-- One of the ledgers of a request. -/
def items {β : Type} (f : Fields) (name idField : String)
    (reader : Fields → Except (Fault Float) β) (id : β → String) :
    Except (Fault Float) (Ledger β) := do
  let parts ← f.read name Datum.parts []
  let read ← parts.mapM fun d => do reader (← itemFields idField d)
  return .ofList (read.map fun x => (id x, x))

/-- The shares in the record of a scenario: a record, or nothing for the usual ones. -/
def readShares : Datum → Except (Fault Float) (Shares Float)
  | .null => Shares.ofFields ∅
  | .record fields => Shares.ofFields (.ofList fields)
  | _ => .error .notARecord

/-- The scenario of a request. -/
def readScenario : Datum → Except (Fault Float) (Scenario Float)
  | .text name => Preset.named name
  | .record fields => Scenario.ofFieldsWith readShares (.ofList fields)
  | .list [] => Scenario.ofFieldsWith readShares ∅
  | _ => .error .malformed

/-- A request from a record. -/
def ofFields (f : Fields) : Except (Fault Float) (Request Float) := do
  match f.get? "total_income" with
  | none => throw (.missingKey "total_income")
  | some income =>
    let mandatory ← items f "mandatory_expenses" "category_id" Category.ofFields (·.id)
    let flexible ← items f "flexible_expenses" "category_id" Category.ofFields (·.id)
    let debts ← items f "debt_payments" "debt_id" Debt.ofFields (·.id)
    let goals ← items f "goal_targets" "goal_id" Goal.ofFields (·.id)
    let budget ← Budget.make (← income.readAmount) mandatory flexible debts goals
    let scenario ← readScenario ((f.get? "scenario").getD (.text Preset.balanced.name))
    return ⟨budget, scenario, f.flag "use_all_scenarios", f.flag "run_sensitivity"⟩

end Request

end GoalBudget
