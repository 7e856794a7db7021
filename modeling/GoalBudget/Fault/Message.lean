import GoalBudget.Fault
import GoalBudget.Names
import GoalBudget.Text.Decimal
import GoalBudget.Text.Quoted

/-!
# Wording of faults

The text that goes with every fault, which section 7 of the specification asks to be a reason that a
reader understands. Amounts are written in the fewest digits, deficits with two places and sums of
shares with four; texts that came from the input stand in quotes. The names of records and fields
are those of the interface (`Field.name`), and lists of alternatives are spelled in the order in
which they are checked, except for the scenarios, which are in alphabetical order.

A malformed record has no text of its own, and neither has a value that is not a record: what goes
wrong there is said by the reader of the record.
-/

namespace GoalBudget

open Text

/-- The names of a record and its field. -/
def Field.name : Field → String
  | categoryMinimum => "CategoryConstraint.minimum"
  | categoryMaximum => "CategoryConstraint.maximum"
  | debtMinimumPayment => "DebtConstraint.minimum_payment"
  | debtCurrentBalance => "DebtConstraint.current_balance"
  | debtInterestRate => "DebtConstraint.interest_rate"
  | debtFixedPayment => "DebtConstraint.fixed_payment"
  | goalSuggestedContribution => "GoalConstraint.suggested_contribution"
  | goalRemainingAmount => "GoalConstraint.remaining_amount"
  | budgetTotalIncome => "ConstraintModel.total_income"
  | shareEmergencyFund => "SurplusAllocation.emergency_fund_percent"
  | shareDebtExtra => "SurplusAllocation.debt_extra_percent"
  | shareGoals => "SurplusAllocation.goals_percent"
  | shareFlexible => "SurplusAllocation.flexible_percent"
  | scenarioGoalFactor => "ScenarioParameters.goal_contribution_factor"

namespace Fault

/-- The text of a fault. A malformed record has none. -/
def message : Fault Float → String
  | negative field value =>
    field.name ++ " must be non-negative, got " ++ shortestText value
  | negativePriorityWeight value =>
    "GoalConstraint.priority_weight must be non-negative, got " ++ toString value
  | maximumBelowMinimum maximum minimum category =>
    "CategoryConstraint.maximum (" ++ shortestText maximum ++ ") is below minimum (" ++
      shortestText minimum ++ ") for category " ++ category
  | unknownGoalPriority name =>
    "GoalConstraint.priority must be one of " ++
      parenthesized ["critical", "high", "medium", "low"] ++ ", got " ++ quoted name
  | repeatedIds ids => "IDs must be unique across the constraint model: " ++ bracketed ids
  | sharesExceedWhole sum =>
    "Surplus allocation percentages must sum to at most 1, got " ++ fixedText 4 sum
  | levelOutOfRange => "Flexible spending level must be between 0 and 1."
  | unknownScenario name =>
    "Unknown scenario " ++ quoted name ++ "; expected one of " ++
      bracketed ["aggressive", "balanced", "conservative"]
  | negativeAllocation id amount =>
    "Allocation for " ++ id ++ " must be non-negative, got " ++ shortestText amount
  | negativePayment debt amount =>
    "Debt payment for " ++ debt ++ " must be non-negative, got " ++ shortestText amount
  | unknownVariableKind name =>
    "Variable kind must be one of " ++ parenthesized ["category", "debt", "goal"] ++
      ", got " ++ quoted name
  | negativeBound id => "Variable " ++ id ++ " bounds must be non-negative"
  | boundsReversed id => "Variable " ++ id ++ " has max_value below min_value"
  | unknownShape name =>
    "Unknown membership kind " ++ quoted name ++ "; expected one of " ++
      parenthesized (Shape.all.map Shape.name)
  | noSegments => "Piecewise membership requires at least one segment"
  | segmentReversed upper lower =>
    "Segment upper " ++ shortestText upper ++ " is below lower " ++ shortestText lower
  | segmentsApart upper lower =>
    "Segments must be contiguous: " ++ shortestText upper ++ " != " ++ shortestText lower
  | capsFall => "Segment caps must be non-decreasing"
  | cornersOutOfOrder shape lower peakLeft peakRight upper =>
    shape.name ++ " membership requires lower <= peak_left <= peak_right <= upper, got " ++
      ", ".intercalate ([lower, peakLeft, peakRight, upper].map shortestText)
  | unknownVariable goal index =>
    "Goal " ++ goal ++ " refers to unknown variable index " ++ toString index
  | noLevels goal => "Meta goal " ++ goal ++ " needs at least one level"
  | unknownGoalType name =>
    "Goal type must be one of " ++ parenthesized ["at_least", "at_most", "exactly"] ++
      ", got " ++ quoted name
  | unknownStrategy name =>
    "Unknown strategy " ++ quoted name ++ "; expected one of " ++
      parenthesized ["fuzzy", "meta", "preemptive", "lp", "hybrid"]
  | unknownLpBackend name =>
    "Unknown LP backend " ++ quoted name ++ "; expected 'simplex' or 'pulp'"
  | negativeColumnCount => "num_vars must be non-negative"
  | coefficientCount expected got =>
    "Expected " ++ toString expected ++ " coefficients, got " ++ toString got
  | unknownRelation sign =>
    "Constraint operator must be one of " ++ parenthesized (Relation.all.map Relation.sign) ++
      ", got " ++ quoted sign
  | columnOutOfRange column columns =>
    "Variable index " ++ toString column ++ " out of range for " ++ toString columns ++
      " variables"
  | infiniteLowerBound => "SimplexSolver requires finite lower bounds"
  | binaryUnsupported =>
    "SimplexSolver does not support binary variables; use a MILP backend"
  | commandMissing name => "Solver " ++ name ++ " is not available"
  | released => "Backend has already been released"
  | infeasibleMinimums deficit => "budget deficit: " ++ fixedText 2 deficit
  | stopped status => "solver returned non-optimal status: " ++ status.text
  | divisionByZero => "float division by zero"
  | powerOutOfRange => "(34, 'Numerical result out of range')"
  | wholeNumberOutOfRange => "int too large to convert to float"
  | infiniteRounded => "cannot convert float infinity to integer"
  | undefinedRounded => "cannot convert float NaN to integer"
  | positionOutOfRange => "list index out of range"
  | coefficientOutOfRange => "list assignment index out of range"
  | missingKey key => key
  | noObjective | malformed | notARecord => ""

/-- The text of a fault, or a text given in its place unless that is empty. -/
def messageOr (text : String) (fault : Fault Float) : String :=
  if text.isEmpty then fault.message else text

end Fault

end GoalBudget
