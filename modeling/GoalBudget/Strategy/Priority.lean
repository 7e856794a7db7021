import GoalBudget.Fault
import GoalBudget.Number.Sorting

/-!
# Priorities

Items are served in tiers of equal priority, the smaller number first. `tiers` groups items by
ascending priority and keeps their order within a tier.

A program with one objective approximates this order by multiplying each tier's weight with a power
of a base (`priorityScale`; section 4.3 of the specification asks for such a factor, and section 9
says that it is no more than an approximation). The exponent is the number of tiers between the item
and a reference, which is the less important one of a fixed priority and, where it is given, the
least important one in use. Counting from the latter keeps the powers as small as the order allows;
a large power can leave the range of the number type, which is a fault.

The verdict on a goal is by fixed thresholds of its satisfaction (section 4.4): achieved from 0.8
on, in part from 0.3 on.
-/

namespace GoalBudget

/-- Items in tiers by ascending priority, each tier in the order of the items. -/
def tiers {τ : Type} (priority : τ → Int) (items : List τ) : List (Int × List τ) :=
  let levels := (items.map priority).eraseDups.mergeSort fun a b => a ≤ b
  levels.map fun level => (level, items.filter fun item => priority item == level)

section
variable {α : Type} [Scalar α]

/-- A whole number as a scalar, or the fault that it is too large. -/
def ofWhole (n : Int) : Except (Fault α) α :=
  match Scalar.ofInt? n with
  | some x => .ok x
  | none => .error .wholeNumberOutOfRange

/-- How many tiers a priority stands above the reference: the less important one of `top` and,
if it is given, the least important priority in use. -/
def tiersAbove (priority top : Int) (lowest : Option Int) : Nat :=
  ((lowest.elim top (min top)) - priority).toNat

/-- The multiplier of a tier: the base to the power of the tiers it stands above. -/
def priorityScale (priority : Int) (base : α) (top : Int) (lowest : Option Int) :
    Except (Fault α) α := do
  let exponent := tiersAbove priority top lowest
  let _ ← (ofWhole exponent : Except (Fault α) α)
  match Scalar.power? base exponent with
  | some x => return x
  | none => throw .powerOutOfRange

/-- The largest of some priorities. -/
def leastImportant (priorities : List Int) : Option Int := priorities.max?

end

/-- How well a goal is served. -/
inductive Verdict where
  /-- The goal counts as reached. -/
  | achieved
  /-- The goal is served in part. -/
  | partly
  /-- The goal is hardly served. -/
  | unachieved
  deriving DecidableEq, Repr

namespace Verdict

/-- The name of a verdict. -/
def name : Verdict → String
  | achieved => "achieved"
  | partly => "partial"
  | unachieved => "unachieved"

/-- The verdict on a satisfaction: reached from 0.8 on, in part from 0.3 on. -/
def ofDegree {α : Type} [Scalar α] (degree : α) : Verdict :=
  if 0.8 ≤ degree then achieved else if 0.3 ≤ degree then partly else unachieved

end Verdict

end GoalBudget
