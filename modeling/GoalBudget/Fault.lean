import GoalBudget.Names

/-!
# Faults

Everything that can go wrong, one constructor per cause, with the data that the cause is about. The
wording is elsewhere (`Fault.message`); here is only what happened, so that a statement about a
failure does not depend on a text.

Section 7 of the specification tells several errors apart. Minimums above the income are
`infeasibleMinimums`, with the deficit; a backend that is missing or was released is
`commandMissing` or `released`; a run without an optimum is `stopped`, with its status; everything
else is an argument that is refused, by a constructor of a record or by a statement to a solver.
`Fault.kind` sorts the causes into the kinds that a caller tells apart.

Some causes are not raised by a check but by the arithmetic underneath: a division by zero, a number
that leaves its range, a position beyond the end of a list. They are kept apart, because a theorem
that a computation succeeds has to exclude them too.
-/

namespace GoalBudget

/-- The fields of the input records that must not be negative. -/
inductive Field where
  | categoryMinimum | categoryMaximum
  | debtMinimumPayment | debtCurrentBalance | debtInterestRate | debtFixedPayment
  | goalSuggestedContribution | goalRemainingAmount
  | budgetTotalIncome
  | shareEmergencyFund | shareDebtExtra | shareGoals | shareFlexible
  | scenarioGoalFactor
  deriving DecidableEq, Repr

/-- What went wrong. -/
inductive Fault (α : Type) where
  /-- A field that must not be negative is. -/
  | negative (field : Field) (value : α)
  /-- A goal has a negative priority weight. -/
  | negativePriorityWeight (value : Int)
  /-- A category has a maximum, and it lies below the minimum. -/
  | maximumBelowMinimum (maximum minimum : α) (category : String)
  /-- A goal has a priority that is not one of the four. -/
  | unknownGoalPriority (name : String)
  /-- Two collections of a budget share ids. -/
  | repeatedIds (ids : List String)
  /-- The shares of the surplus add up to more than all of it. -/
  | sharesExceedWhole (sum : α)
  /-- The spending level is not between zero and one. -/
  | levelOutOfRange
  /-- There is no preset of this name. -/
  | unknownScenario (name : String)
  /-- An allocation is negative. -/
  | negativeAllocation (id : String) (amount : α)
  /-- A debt payment is negative. -/
  | negativePayment (debt : String) (amount : α)
  /-- There is no such kind of variable. -/
  | unknownVariableKind (name : String)
  /-- A variable has a negative bound. -/
  | negativeBound (variableId : String)
  /-- A variable is bounded above by less than below. -/
  | boundsReversed (variableId : String)
  /-- There is no curve of this shape. -/
  | unknownShape (name : String)
  /-- A piecewise curve has no segments. -/
  | noSegments
  /-- A segment ends before it starts. -/
  | segmentReversed (upper lower : α)
  /-- A segment does not start where the one before ends. -/
  | segmentsApart (upper lower : α)
  /-- The cap of a segment lies below the one before. -/
  | capsFall
  /-- The corner points of a curve are not in ascending order. -/
  | cornersOutOfOrder (shape : Shape) (lower peakLeft peakRight upper : α)
  /-- A goal refers to a variable that does not exist. -/
  | unknownVariable (goal : String) (index : Int)
  /-- A goal has an empty ladder of levels. -/
  | noLevels (goal : String)
  /-- There is no such type of deviation goal. -/
  | unknownGoalType (name : String)
  /-- There is no such strategy. -/
  | unknownStrategy (name : String)
  /-- There is no such solver of linear programs. -/
  | unknownLpBackend (name : String)
  /-- A program was asked for with a negative number of columns. -/
  | negativeColumnCount
  /-- A row or objective has the wrong number of coefficients. -/
  | coefficientCount (expected : Int) (got : Nat)
  /-- There is no relation of this sign. -/
  | unknownRelation (sign : String)
  /-- A column does not exist. -/
  | columnOutOfRange (column : Int) (columns : Nat)
  /-- The tableau solver needs a finite lower bound. -/
  | infiniteLowerBound
  /-- The tableau solver has no binary columns. -/
  | binaryUnsupported
  /-- The solver command is not installed. -/
  | commandMissing (name : String)
  /-- A solver was used after its release. -/
  | released
  /-- The value of an objective was asked for that was never set. -/
  | noObjective
  /-- The lower bounds of the items exceed the income by `deficit`. -/
  | infeasibleMinimums (deficit : α)
  /-- A solver ended without a best solution. -/
  | stopped (status : Status)
  /-- A quotient with divisor zero. -/
  | divisionByZero
  /-- A power of a finite number that is too large. -/
  | powerOutOfRange
  /-- A whole number that is too large for an amount. -/
  | wholeNumberOutOfRange
  /-- An infinite amount was to be rounded. -/
  | infiniteRounded
  /-- An undefined amount was to be rounded. -/
  | undefinedRounded
  /-- A position beyond the end of a list. -/
  | positionOutOfRange
  /-- A coefficient was to be set for a column that the row does not have. -/
  | coefficientOutOfRange
  /-- A required entry of an event is missing. -/
  | missingKey (key : String)
  /-- A record lacks a field, has one too many, or holds a value of the wrong type. -/
  | malformed
  /-- A value that is not a record stands where one is needed. -/
  | notARecord
  deriving Repr

/-- The kinds of faults that a caller tells apart. -/
inductive Fault.Kind where
  | value | key | type | position | attribute | overflow | division
  | infeasibleMinimums | solver | backendUnavailable
  deriving DecidableEq, Repr

/-- The kind of a fault. -/
def Fault.kind {α : Type} : Fault α → Fault.Kind
  | commandMissing _ | released => .backendUnavailable
  | infeasibleMinimums _ => .infeasibleMinimums
  | stopped _ => .solver
  | divisionByZero => .division
  | powerOutOfRange | wholeNumberOutOfRange | infiniteRounded => .overflow
  | positionOutOfRange | coefficientOutOfRange => .position
  | missingKey _ => .key
  | malformed => .type
  | noObjective | notARecord => .attribute
  | _ => .value

end GoalBudget
