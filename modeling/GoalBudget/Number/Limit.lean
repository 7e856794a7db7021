import GoalBudget.Number.Scalar

/-!
# Limits

An upper limit is an amount or endless. A number type with an infinite value uses it as the endless
limit, so that comparisons with it are the type's own; a number type without one has the constructor
`endless`. All code goes through `Limit.unbounded`, which picks the right one.

Limits occur in two places. A variable or a category whose maximum is zero has no upper bound
(section 3 of the specification), so the room left in it is endless (`minus`, `exceeds`); and a
column of a program is bounded above by a limit, which may be said to be infinite (`finite?`,
`isEndless`).

Where two values are equal it matters which one is returned, since one of them may be a negative
zero or an undefined value: `hold` prefers the amount, `drawIn` prefers the limit.
-/

namespace GoalBudget

/-- An upper limit on an amount. -/
inductive Limit (α : Type) where
  /-- Reached at an amount. -/
  | upTo (bound : α)
  /-- Never reached. -/
  | endless

namespace Limit

variable {α : Type} [Scalar α]

/-- The limit that no amount reaches. -/
def unbounded : Limit α :=
  match (Scalar.infinity? : Option α) with
  | some top => .upTo top
  | none => .endless

/-- An amount held down to the limit; the amount itself unless the limit is strictly smaller. -/
def hold (a : α) : Limit α → α
  | upTo bound => least a bound
  | endless => a

/-- The limit drawn in to an amount; the limit itself unless the amount is strictly smaller. -/
def drawIn (a : α) : Limit α → α
  | upTo bound => least bound a
  | endless => a

/-- What is left of the limit after an amount. -/
def minus (a : α) : Limit α → Limit α
  | upTo bound => upTo (bound - a)
  | endless => endless

/-- Whether the limit lies strictly above an amount. -/
def exceeds (a : α) : Limit α → Bool
  | upTo bound => decide (a < bound)
  | endless => true

/-- Whether the limit lies strictly below an amount. -/
def fallsBelow (a : α) : Limit α → Bool
  | upTo bound => decide (bound < a)
  | endless => false

/-- The amount at which a genuine limit is reached; `none` for an infinite or undefined one. -/
def finite? : Limit α → Option α
  | upTo bound => if Scalar.isFinite bound then some bound else none
  | endless => none

/-- Whether the limit is never reached, or reached at an infinite amount. -/
def isEndless : Limit α → Bool
  | upTo bound => isInfinite bound
  | endless => true

end Limit

end GoalBudget
