import GoalBudget.Allocation.Allocator
import GoalBudget.Review.Advice

/-!
# Prospects

A budget under several presets, which is the multi-scenario generation of section 10.5 of the
specification: for each of them the allocation with its summary, and what there is to point out.
Where the income does not cover the commitments there is no allocation under any preset, and the
first concern says so.

The presets are gone through in the order of the names given, and the first fault ends it: an
unknown name, or an allocation that fails although the commitments are covered
(`Allocator.prospect`). A budget that is short of money is thus not a fault but a prospect without a
result, whose score counts as zero.

The scenario of the budget itself plays no part here.
-/

namespace GoalBudget

/-- A budget under one preset. -/
structure Prospect (α : Type) where
  preset : Preset
  /-- The allocation and its summary, if the income covers the commitments. -/
  result : Option (Allocation α × Summary α)
  /-- What there is to point out. -/
  concerns : List (Concern α)

namespace Prospect

variable {α : Type} [Scalar α]

/-- Whether there is an allocation. -/
def isFeasible (p : Prospect α) : Bool := p.result.isSome

/-- How well the goals are served; zero without an allocation. -/
def score (p : Prospect α) : α := p.result.elim 0 (·.1.score)

end Prospect

namespace Allocator

variable {α : Type} [Scalar α]

/-- A budget under the preset of a given name. -/
def prospect (a : Allocator α) (b : Budget α) (name : String) :
    Except (Fault α) (Prospect α) := do
  let preset ← Preset.ofName name
  let s ← preset.scenario
  match b.shortfall? with
  | some deficit =>
    return ⟨preset, none, .insufficientIncome (b.remedies deficit) :: preset.concerns b none⟩
  | none =>
    let allocation ← a.solve b s
    let summary := allocation.summary b
    return ⟨preset, some (allocation, summary), preset.concerns b (some summary)⟩

/-- A budget under several presets, in the order of their names. -/
def prospects (a : Allocator α) (b : Budget α) (names : List String) :
    Except (Fault α) (List (Prospect α)) :=
  names.mapM (a.prospect b)

end Allocator

/-- The names of all presets, from the careful to the bold. -/
def Preset.names : List String := all.map name

end GoalBudget
