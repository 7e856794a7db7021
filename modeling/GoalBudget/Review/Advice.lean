import GoalBudget.Review.Summary
import GoalBudget.Text.Decimal

/-!
# Advice

What a scenario gives reason to point out: the warnings of the multi-scenario generation in section
10.5 of the specification. Every concern has a severity, an area and suggestions. An income that
does not cover the commitments is the only critical one; the others depend on the preset: the
careful one looks for an emergency fund and savings, the balanced one for expensive debts, the bold
one for spending without a buffer.

Which concerns there are is decided over any scalar type (`Preset.concerns`); their texts are
written for doubles, with two decimal places for amounts (`Concern.suggestions`). The remedies
against a deficit are listed in a fixed order: what is missing, the flexible categories that can be
reduced with the room between their bounds, expensive debts, and ways to a higher income
(`Budget.remedies`).

A name that is no preset gives no concerns. Where there is no allocation the concerns that need one
are left out, not guessed.
-/

namespace GoalBudget

/-- How pressing a concern is. -/
inductive Severity where
  | critical | warning | info
  deriving DecidableEq, Repr

/-- The word for a severity. -/
def Severity.name : Severity → String
  | critical => "critical"
  | warning => "warning"
  | info => "info"

/-- What a concern is about. -/
inductive Area where
  | income | expense | debt | goal
  deriving DecidableEq, Repr

/-- The word for an area. -/
def Area.name : Area → String
  | income => "income"
  | expense => "expense"
  | debt => "debt"
  | goal => "goal"

/-- One line of advice against a deficit. -/
inductive Remedy (α : Type) where
  /-- How much is missing. -/
  | missing (deficit : α)
  /-- Heads the flexible categories that can be reduced. -/
  | reduceSpending
  /-- A flexible category with the room between its bounds. -/
  | reduce (category : String) (room : α)
  /-- Expensive debts can be restructured. -/
  | restructureDebts
  /-- Heads the ways to a higher income. -/
  | raiseIncome
  /-- Work on the side. -/
  | sideWork
  /-- Things that can be sold. -/
  | sellThings
  /-- A higher wage. -/
  | negotiate
  deriving Repr

/-- The text of a line of advice. -/
def Remedy.text : Remedy Float → String
  | missing deficit =>
    "Your income is " ++ Text.fixedText 2 deficit ++
      " short of covering mandatory expenses and minimum debt payments"
  | reduceSpending => "Consider adjusting these flexible expense categories:"
  | reduce category room => "- Reduce " ++ category ++ " by up to " ++ Text.fixedText 2 room
  | restructureDebts => "Consider debt consolidation or refinancing for high-interest debts"
  | raiseIncome => "Explore opportunities to increase income through:"
  | sideWork => "- Side gigs or freelance work"
  | sellThings => "- Selling unused items"
  | negotiate => "- Negotiating a raise"

/-- What a scenario gives reason to point out. -/
inductive Concern (α : Type) where
  /-- The income does not cover the commitments. -/
  | insufficientIncome (remedies : List (Remedy α))
  /-- No goal is an emergency fund. -/
  | noEmergencyFund
  /-- Little is saved. -/
  | lowSavings
  /-- Some debt is expensive. -/
  | expensiveDebt
  /-- Flexible spending is as high as it gets. -/
  | highSpending
  /-- Little is left over. -/
  | lowSurplus
  deriving Repr

namespace Concern

/-- How pressing a concern is. -/
def severity {α : Type} : Concern α → Severity
  | insufficientIncome _ => .critical
  | noEmergencyFund | expensiveDebt | lowSurplus => .warning
  | lowSavings | highSpending => .info

/-- What a concern is about. -/
def area {α : Type} : Concern α → Area
  | insufficientIncome _ | lowSurplus => .income
  | noEmergencyFund | lowSavings => .goal
  | expensiveDebt => .debt
  | highSpending => .expense

/-- The concern in one line. -/
def headline {α : Type} : Concern α → String
  | insufficientIncome _ =>
    "Insufficient income to cover mandatory expenses and minimum debt payments"
  | noEmergencyFund => "No emergency fund goal detected"
  | lowSavings => "Low savings rate in conservative scenario"
  | expensiveDebt => "High-interest debt detected"
  | highSpending => "Flexible spending at maximum levels"
  | lowSurplus => "Very low surplus remaining"

/-- What can be done about a concern. -/
def suggestions : Concern Float → List String
  | insufficientIncome remedies => remedies.map Remedy.text
  | noEmergencyFund => ["Consider creating an emergency fund goal for 3-6 months of expenses"]
  | lowSavings =>
    ["Your current income may be tight. Consider increasing income or reducing expenses."]
  | expensiveDebt => ["Consider paying off high-interest debts faster to save on interest"]
  | highSpending =>
    ["This scenario assumes higher lifestyle spending. Ensure you can sustain this level."]
  | lowSurplus => ["This aggressive allocation leaves little buffer for unexpected expenses"]

end Concern

variable {α : Type} [Scalar α]

namespace Budget

/-- Whether some debt bears at least 15 percent interest. -/
def hasExpensiveDebt (b : Budget α) : Bool := b.debts.values.any fun d => 15 ≤ d.interestRate

/-- Whether some goal is an emergency fund. -/
def hasEmergencyFund (b : Budget α) : Bool := b.goals.values.any (·.isEmergency)

/-- The flexible categories with room between their bounds. -/
def reducible (b : Budget α) : List (Remedy α) :=
  b.flexible.sorted.entries.filterMap fun e =>
    let room := e.2.maximum - e.2.minimum
    if 0 < room then some (.reduce e.1 room) else none

/-- What can be done about a deficit. -/
def remedies (b : Budget α) (deficit : α) : List (Remedy α) :=
  [.missing deficit] ++
    (if b.reducible.isEmpty then [] else .reduceSpending :: b.reducible) ++
    (if b.hasExpensiveDebt then [.restructureDebts] else []) ++
    [.raiseIncome, .sideWork, .sellThings, .negotiate]

end Budget

/-- A concern if there is reason for it. -/
def Concern.onlyIf (reason : Bool) (c : Concern α) : List (Concern α) := if reason then [c] else []

/-- The concerns of a preset. Those that need a summary are left out where there is none. -/
def Preset.concerns (p : Preset) (b : Budget α) (summary : Option (Summary α)) :
    List (Concern α) :=
  match p with
  | .conservative =>
    Concern.onlyIf (!b.hasEmergencyFund) .noEmergencyFund ++
      Concern.onlyIf (summary.any fun s => s.savingsRate < 10) .lowSavings
  | .balanced => Concern.onlyIf b.hasExpensiveDebt .expensiveDebt
  | .aggressive =>
    Concern.onlyIf (summary.any fun s => 0 < s.flexible) .highSpending ++
      Concern.onlyIf (summary.any fun s => s.surplus < 100) .lowSurplus

/-- The concerns of a scenario by name; one that is no preset has none. -/
def concernsOf (name : String) (b : Budget α) (summary : Option (Summary α)) :
    List (Concern α) :=
  (Preset.ofName? name).elim [] fun p => p.concerns b summary

end GoalBudget
