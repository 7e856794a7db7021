import GoalBudget.Budget.Basic
import GoalBudget.Record.Fields

/-!
# Records of budgets and scenarios

How the items of a budget, budgets, and scenarios with their shares are read from records and
written as records (section 3 of the specification says what they hold, section 10.1 that they are
checked when they are made). The names of the fields, which of them are required and what stands in
for the others are those of the interface.

Every amount is checked as soon as it is read, so of two faults the earlier field's is reported. The
shares of a scenario are read before anything else of it. A text in place of a scenario is the name
of a preset.
-/

namespace GoalBudget

/-! ## Budgets -/

/-- A category from a record. An unset priority may be nothing. -/
def Category.ofFields (f : Fields) : Except (Fault Float) (Category Float) := do
  f.check ["category_id", "minimum"] ["maximum", "is_flexible", "priority"]
  let id ← f.text "category_id" ""
  let minimum ← f.nonNegative .categoryMinimum "minimum" 0
  let maximum ← f.nonNegative .categoryMaximum "maximum" 0
  let priority ← f.read "priority" (fun d => if d matches .null then .ok 0 else d.readWhole) 0
  make id minimum maximum (f.flag "is_flexible") priority

def Category.toDatum (c : Category Float) : Datum :=
  .record [("category_id", .text c.id), ("minimum", .amount c.minimum),
    ("maximum", .amount c.maximum), ("is_flexible", .flag c.isFlexible),
    ("priority", .whole c.priority)]

def Debt.ofFields (f : Fields) : Except (Fault Float) (Debt Float) := do
  f.check ["debt_id", "debt_name", "minimum_payment"]
    ["current_balance", "interest_rate", "fixed_payment", "priority"]
  let id ← f.text "debt_id" ""
  let name ← f.text "debt_name" ""
  let minimumPayment ← f.nonNegative .debtMinimumPayment "minimum_payment" 0
  let currentBalance ← f.nonNegative .debtCurrentBalance "current_balance" 0
  let interestRate ← f.nonNegative .debtInterestRate "interest_rate" 0
  let fixedPayment ← f.nonNegative .debtFixedPayment "fixed_payment" 0
  make id name minimumPayment currentBalance interestRate fixedPayment (← f.whole "priority" 0)

def Debt.toDatum (d : Debt Float) : Datum :=
  .record [("debt_id", .text d.id), ("debt_name", .text d.name),
    ("minimum_payment", .amount d.minimumPayment), ("current_balance", .amount d.currentBalance),
    ("interest_rate", .amount d.interestRate), ("fixed_payment", .amount d.fixedPayment),
    ("priority", .whole d.priority)]

def Goal.ofFields (f : Fields) : Except (Fault Float) (Goal Float) := do
  f.check ["goal_id", "goal_name", "suggested_contribution", "remaining_amount"]
    ["goal_type", "priority", "priority_weight"]
  let id ← f.text "goal_id" ""
  let name ← f.text "goal_name" ""
  let suggested ← f.nonNegative .goalSuggestedContribution "suggested_contribution" 0
  let remaining ← f.nonNegative .goalRemainingAmount "remaining_amount" 0
  let weight ← f.whole "priority_weight" 20
  make id name suggested remaining (← f.text "goal_type" "savings") (← f.text "priority" "medium")
    weight

def Goal.toDatum (g : Goal Float) : Datum :=
  .record [("goal_id", .text g.id), ("goal_name", .text g.name),
    ("suggested_contribution", .amount g.suggestedContribution),
    ("remaining_amount", .amount g.remainingAmount), ("goal_type", .text g.goalType),
    ("priority", .text g.priority.name), ("priority_weight", .whole g.priorityWeight)]

/-- Items from a list of records, by their ids. -/
def Ledger.ofRecords {β : Type} (reader : Fields → Except (Fault Float) β) (id : β → String)
    (items : List Datum) : Except (Fault Float) (Ledger β) := do
  let read ← items.mapM fun item => do reader (← item.readRecord)
  return .ofList (read.map fun x => (id x, x))

/-- A budget from a record with lists of items. -/
def Budget.ofFields (f : Fields) : Except (Fault Float) (Budget Float) := do
  f.check ["total_income"]
    ["mandatory_expenses", "flexible_expenses", "debt_payments", "goal_targets"]
  let items name := f.read name Datum.readList []
  let mandatory ← Ledger.ofRecords Category.ofFields (·.id) (← items "mandatory_expenses")
  let flexible ← Ledger.ofRecords Category.ofFields (·.id) (← items "flexible_expenses")
  let debts ← Ledger.ofRecords Debt.ofFields (·.id) (← items "debt_payments")
  let goals ← Ledger.ofRecords Goal.ofFields (·.id) (← items "goal_targets")
  make (← f.amount "total_income" 0) mandatory flexible debts goals

/-! ## Scenarios -/

/-- The fields of the shares of a surplus, in order. -/
def Shares.fieldNames : List String :=
  ["emergency_fund_percent", "debt_extra_percent", "goals_percent", "flexible_percent"]

def Shares.ofFields (f : Fields) : Except (Fault Float) (Shares Float) := do
  f.check [] fieldNames
  let emergencyFund ← f.nonNegative .shareEmergencyFund "emergency_fund_percent" 0.4
  let debtExtra ← f.nonNegative .shareDebtExtra "debt_extra_percent" 0.3
  let goals ← f.nonNegative .shareGoals "goals_percent" 0.2
  let flexible ← f.nonNegative .shareFlexible "flexible_percent" 0.1
  make emergencyFund debtExtra goals flexible

/-- Shares of a surplus from a list, those at its end left out. -/
def Shares.ofList (items : List Datum) : Except (Fault Float) (Shares Float) :=
  if items.length ≤ fieldNames.length then ofFields (.ofList (fieldNames.zip items))
  else .error .malformed

def Shares.toDatum (s : Shares Float) : Datum :=
  .record (fieldNames.zip
    [.amount s.emergencyFund, .amount s.debtExtra, .amount s.goals, .amount s.flexible])

/-- A scenario from a record without shares, and shares. -/
def Scenario.ofFields (f : Fields) (shares : Shares Float) :
    Except (Fault Float) (Scenario Float) := do
  f.check [] ["scenario_type", "goal_contribution_factor", "flexible_spending_level"]
  let name ← f.text "scenario_type" "balanced"
  let goalFactor ← f.nonNegative .scenarioGoalFactor "goal_contribution_factor" 1
  make name goalFactor (← f.amount "flexible_spending_level" 0.5) shares

/-- The field that holds the shares of a scenario. -/
def Scenario.sharesField : String := "surplus_allocation"

/-- A scenario from a record that may hold shares, which are read first. -/
def Scenario.ofFieldsWith (readShares : Datum → Except (Fault Float) (Shares Float))
    (f : Fields) : Except (Fault Float) (Scenario Float) := do
  let shares ← (f.get? sharesField).elim (Shares.ofFields ∅) readShares
  Scenario.ofFields (f.filter fun name _ => name != sharesField) shares

/-- A scenario from the name of a preset or a record, in which the shares are a list. -/
def Scenario.ofDatum : Datum → Except (Fault Float) (Scenario Float)
  | .null => Scenario.ofFields ∅ =<< Shares.ofFields ∅
  | .text name => Preset.named name
  | d => do
    Scenario.ofFieldsWith (fun shares => do Shares.ofList (← shares.readList)) (← d.readRecord)

def Scenario.toDatum (s : Scenario Float) : Datum :=
  .record [("scenario_type", .text s.name), ("goal_contribution_factor", .amount s.goalFactor),
    ("flexible_spending_level", .amount s.spendingLevel), (sharesField, s.shares.toDatum)]

end GoalBudget
