import GoalBudget.Bucket.Hybrid
import GoalBudget.Deviation.Basic
import GoalBudget.Fuzzy.Basic
import GoalBudget.Ladder.Basic

/-!
# Strategies and their proposals

The ways of deciding about flexible spending and goals, and what the result of each of them
proposes: amounts, the goals reached, and a score from 0 to 100. These are the strategies of section
4.4 of the specification; their names are part of the interface (`Strategy.ofName`).

The score is computed differently for each:

* the mean satisfaction by weight, of which no more than one counts;
* the part of the rewards that was collected, with ladders and with buckets;
* the part of the goals that was reached, where goals have targets. Without goals it is a hundred.

What counts as reached differs, too: a high satisfaction, the highest level of a ladder, a deviation
below the tolerance, any level of a bucket. Only the hybrid strategy proposes something for debts.
It has no iterations to report.

Of the hybrid strategy the items of all buckets are read, not the final records: debts go into one
ledger, everything else into the other, where the flexible minimums are added.
-/

namespace GoalBudget

/-- The ways of deciding about flexible spending and goals. -/
inductive Strategy where
  | fuzzy | ladder | preemptive | linear | hybrid
  deriving DecidableEq, Repr

namespace Strategy

/-- All strategies. -/
def all : List Strategy := [fuzzy, ladder, preemptive, linear, hybrid]

/-- The name of a strategy. -/
def name : Strategy → String
  | fuzzy => "fuzzy"
  | ladder => "meta"
  | preemptive => "preemptive"
  | linear => "lp"
  | hybrid => "hybrid"

/-- The strategy with a given name, or the fault that there is none. -/
def ofName {α : Type} (name : String) : Except (Fault α) Strategy :=
  match all.find? fun s => s.name == name with
  | some s => .ok s
  | none => .error (.unknownStrategy name)

end Strategy

/-- What a strategy proposes. -/
structure Proposal (α : Type) where
  values : Ledger α
  /-- The goals it reaches. -/
  achieved : List String
  /-- How well the goals are served, from 0 to 100. -/
  score : α
  iterations : Nat
  /-- What debts get on top of the payments due. -/
  debtExtra : Ledger α

variable {α : Type} [Scalar α]

/-- The proposal of the fuzzy strategy. -/
def FuzzyResult.proposal (r : FuzzyResult α) : Proposal α :=
  ⟨r.variableValues, r.achieved, least r.weightedMembership 1 * 100, r.iterations, ∅⟩

/-- The proposal of the strategy with ladders. -/
def LadderResult.proposal (r : LadderResult α) : Proposal α :=
  ⟨r.variableValues, r.ideal, r.rewardRatio * 100, r.iterations, ∅⟩

/-- The proposal of a strategy with targets. -/
def DeviationResult.proposal (r : DeviationResult α) : Proposal α :=
  let goals := r.achieved.length + r.unachieved.length
  let score : α := if goals = 0 then 100 else 100 * (r.achieved.length : α) / (goals : α)
  ⟨r.variableValues, r.achieved, score, r.iterations, ∅⟩

/-- An amount added to the entry of an id. -/
def Ledger.addTo (l : Ledger α) (id : String) (x : α) : Ledger α := l.insert id (l.getD id 0 + x)

/-- The proposal of the hybrid strategy. -/
def HybridResult.proposal (r : HybridResult α) : Proposal α :=
  let items := r.buckets.flatMap (·.items)
  let (debts, others) := items.partition fun item => item.kind == .debt
  let funded := others.foldl (fun l item => l.addTo item.id item.allocated) ∅
  let reached := others.filter fun item =>
    item.kind == .goal && item.attained != .unfunded && item.attained != .partly
  { values := r.flexibleMinimums.entries.foldl (fun l e => l.addTo e.1 e.2) funded
    achieved := reached.map (·.id)
    score := if 0 < r.maxReward then 100 * r.totalReward / r.maxReward else 100
    iterations := 0
    debtExtra := .ofList (debts.map fun item => (item.id, item.allocated)) }

end GoalBudget
