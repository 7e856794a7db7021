import GoalBudget.Budget.Items

/-!
# Scenarios

A scenario tunes how an allocation treats goals, flexible spending and the surplus: a multiplier of
suggested contributions, a position between minimal and maximal flexible spending, and four shares
of the surplus (section 3 of the specification). Three presets exist: conservative, balanced and
aggressive.

Fields are checked in order, and the first check that fails is the fault (`Shares.make`,
`Scenario.make`). The shares may add up to less than the whole; they may exceed it by a billionth
only, which is leeway for sums of fractions that are not exact.

The presets are made by the same checks as any scenario, so that they are scenarios is something to
be computed and not assumed (`Preset.scenario`).
-/

namespace GoalBudget

/-- Which part of the surplus goes where. -/
structure Shares (α : Type) [Scalar α] where
  /-- The part for the emergency fund. -/
  emergencyFund : α
  /-- The part for extra debt payments. -/
  debtExtra : α
  /-- The part for the other goals. -/
  goals : α
  /-- The part for flexible spending. -/
  flexible : α
  emergencyFund_nonneg : ¬emergencyFund < 0
  debtExtra_nonneg : ¬debtExtra < 0
  goals_nonneg : ¬goals < 0
  flexible_nonneg : ¬flexible < 0
  /-- Together they make at most the whole, with a billionth of leeway. -/
  sum_le_whole : ¬(1 + 1e-9 : α) < emergencyFund + debtExtra + goals + flexible

namespace Shares

variable {α : Type} [Scalar α]

/-- The given shares, or the first check that they fail. -/
def make (emergencyFund debtExtra goals flexible : α) : Except (Fault α) (Shares α) := do
  let ⟨h₁⟩ ← requireNonNegative .shareEmergencyFund emergencyFund
  let ⟨h₂⟩ ← requireNonNegative .shareDebtExtra debtExtra
  let ⟨h₃⟩ ← requireNonNegative .shareGoals goals
  let ⟨h₄⟩ ← requireNonNegative .shareFlexible flexible
  let sum := emergencyFund + debtExtra + goals + flexible
  if h₅ : 1 + 1e-9 < sum then throw (.sharesExceedWhole sum)
  else return ⟨emergencyFund, debtExtra, goals, flexible, h₁, h₂, h₃, h₄, h₅⟩

end Shares

/-- How one allocation is tuned. -/
structure Scenario (α : Type) [Scalar α] where
  name : String
  /-- The multiplier of suggested goal contributions. -/
  goalFactor : α
  /-- The position between minimal (0) and maximal (1) flexible spending. -/
  spendingLevel : α
  /-- Which part of the surplus goes where. -/
  shares : Shares α
  goalFactor_nonneg : ¬goalFactor < 0
  /-- The position is not below the minimum. -/
  zero_le_spendingLevel : 0 ≤ spendingLevel
  /-- The position is not above the maximum. -/
  spendingLevel_le_one : spendingLevel ≤ 1

namespace Scenario

variable {α : Type} [Scalar α]

/-- A scenario with the given data, or the first check that it fails. -/
def make (name : String) (goalFactor spendingLevel : α) (shares : Shares α) :
    Except (Fault α) (Scenario α) := do
  let ⟨h₁⟩ ← requireNonNegative .scenarioGoalFactor goalFactor
  if h₂ : 0 ≤ spendingLevel then
    if h₃ : spendingLevel ≤ 1 then return ⟨name, goalFactor, spendingLevel, shares, h₁, h₂, h₃⟩
    else throw .levelOutOfRange
  else throw .levelOutOfRange

end Scenario

/-- The scenarios that come ready made. -/
inductive Preset where
  | conservative | balanced | aggressive
  deriving DecidableEq, Repr

namespace Preset

/-- All presets, from the careful to the bold. -/
def all : List Preset := [conservative, balanced, aggressive]

/-- The name of a preset. -/
def name : Preset → String
  | conservative => "conservative"
  | balanced => "balanced"
  | aggressive => "aggressive"

/-- The preset with a given name. -/
def ofName? (name : String) : Option Preset := all.find? fun p => p.name == name

variable {α : Type} [Scalar α]

/-- The scenario of a preset. -/
def scenario (p : Preset) : Except (Fault α) (Scenario α) := do
  match p with
  | conservative => Scenario.make p.name 0.7 0.0 (← Shares.make 0.60 0.30 0.05 0.05)
  | balanced => Scenario.make p.name 1.0 0.5 (← Shares.make 0.40 0.30 0.20 0.10)
  | aggressive => Scenario.make p.name 1.3 1.0 (← Shares.make 0.25 0.25 0.40 0.10)

/-- The preset with a given name, or the fault that there is none. -/
def ofName (name : String) : Except (Fault α) Preset :=
  match ofName? name with
  | none => .error (.unknownScenario name)
  | some p => .ok p

/-- The scenario of the preset with a given name. -/
def named (name : String) : Except (Fault α) (Scenario α) := do (← ofName name).scenario

end Preset

end GoalBudget
