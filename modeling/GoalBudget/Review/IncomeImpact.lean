import GoalBudget.Allocation.Allocator
import GoalBudget.Review.Summary
import GoalBudget.Text.Decimal

/-!
# Changes of income

What becomes of an allocation when the income changes by some part of itself (the first part of the
sensitivity analysis in section 10.5 of the specification). Either the commitments are no longer
covered, or the budget is allocated anew and compared with the allocation before.

The change is a fraction: the new income is the old one times one plus the change, and a budget with
a negative income is refused. Whether the new income is enough is decided by the commitments alone.
An allocation can fail at an income that passes this check, and then the fault is passed on
(`Allocator.incomeImpact`).

The comparison takes four sums of each allocation, every one with the budget it is an allocation of
(`Shift.between`). Goals that suffer are listed for cuts only: those that get less than four fifths
of what they got before.
-/

namespace GoalBudget

/-- By how much the sums of an allocation move. -/
structure Shift (α : Type) where
  goals : α
  /-- The change of what debts get beyond the required payments. -/
  debtExtra : α
  flexible : α
  surplus : α
  /-- The names of the goals that suffer from a cut. -/
  suffering : List String
  deriving Repr

/-- What a change of income leads to. -/
inductive IncomeEffect (α : Type) where
  /-- The commitments exceed the new income. -/
  | uncovered (deficit : α)
  /-- The budget is allocated anew. -/
  | shifted (shift : Shift α)
  deriving Repr

/-- A change of income and what it leads to. -/
structure IncomeImpact (α : Type) where
  /-- The change, as a part of the income. -/
  change : α
  newIncome : α
  /-- What the change leads to. -/
  effect : IncomeEffect α
  deriving Repr

/-- The shift, unless the commitments are no longer covered. -/
def IncomeEffect.shift? {α : Type} : IncomeEffect α → Option (Shift α)
  | uncovered _ => none
  | shifted s => some s

namespace IncomeImpact

/-- Whether the commitments are still covered. -/
def isFeasible {α : Type} (i : IncomeImpact α) : Bool := i.effect.shift?.isSome

/-- What to do about it, in words. -/
def recommendation (i : IncomeImpact Float) : String :=
  match i.effect with
  | .uncovered deficit =>
    "Income decrease of " ++ Text.fixedText 0 (-i.change * 100) ++
      "% makes allocation infeasible. Need to reduce expenses by " ++ Text.fixedText 2 deficit ++
      " or increase income."
  | .shifted shift =>
    if i.change < 0 then
      if shift.suffering.isEmpty then
        "Income decrease can be absorbed by reducing flexible spending and surplus."
      else
        "Income decrease would reduce funding for " ++ toString shift.suffering.length ++
          " goals. Consider adjusting priorities."
    else
      "Income increase of " ++ Text.fixedText 0 (i.change * 100) ++ "% allows an additional " ++
        Text.fixedText 2 (shift.goals + shift.debtExtra) ++ " for goals and debt payoff."

end IncomeImpact

variable {α : Type} [Scalar α]

/-- The names of the goals that get less than four fifths of what they got before. -/
def sufferingGoals (b : Budget α) (before after : Allocation α) : List String :=
  after.goals.sorted.entries.filterMap fun e =>
    if e.2 < before.goals.getD e.1 0 * 0.8 then (b.goals.get? e.1).map (·.name) else none

/-- How an allocation of a budget moves to one of the budget after a change of income. -/
def Shift.between (b changed : Budget α) (before after : Allocation α) (change : α) : Shift α :=
  let old := before.summary b
  let new := after.summary changed
  { goals := new.goals - old.goals
    debtExtra := after.debtExtra - before.debtExtra
    flexible := new.flexible - old.flexible
    surplus := new.surplus - old.surplus
    suffering := if change < 0 then sufferingGoals b before after else [] }

/-- The impact of a change of income on an allocation. -/
def Allocator.incomeImpact (a : Allocator α) (b : Budget α) (s : Scenario α)
    (before : Allocation α) (change : α) : Except (Fault α) (IncomeImpact α) := do
  let changed ← b.withIncome (b.income * (1 + change))
  match changed.shortfall? with
  | some deficit => return ⟨change, changed.income, .uncovered deficit⟩
  | none =>
    let after ← a.solve changed s
    return ⟨change, changed.income, .shifted (.between b changed before after change)⟩

end GoalBudget
