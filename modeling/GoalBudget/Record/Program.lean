import GoalBudget.Bucket.Hybrid
import GoalBudget.Fuzzy.Basic
import GoalBudget.Program.Backend
import GoalBudget.Record.Fields

/-!
# Records of goal programs

How variables are read from records, and how variables, curves, goals and the results of the
strategies are written as records. Field names are those of the interfaces in section 6 of the
specification; the order of the fields is fixed.

Only variables are read: goals and curves are made by their constructors, which check them, and
records of them are for looking at.

A limit without end is written as an infinite amount, a result without objective as nothing, and an
item without a bucket with an empty name. The records of the buckets are keyed by their purposes.
-/

namespace GoalBudget

def Variable.ofFields (f : Fields) : Except (Fault Float) (Variable Float) := do
  f.check ["id"] ["name", "kind", "min_value", "max_value"]
  ofKindName (← f.text "id" "") (← f.text "name" "") (← f.text "kind" "goal")
    (← f.amount "min_value" 0) (← f.amount "max_value" 0)

def Variable.toDatum (v : Variable Float) : Datum :=
  .record [("id", .text v.id), ("name", .text v.name), ("kind", .text v.kind.name),
    ("min_value", .amount v.minimum), ("max_value", .amount v.maximum)]

/-- A segment as a list: its range, its line, its cap. -/
def Segment.toDatum (s : Segment Float) : Datum :=
  .amounts [s.lower, s.upper, s.slope, s.intercept, s.cap]

/-- The fields of a curve's record. -/
def Curve.toFields (c : Curve Float) : List (String × Datum) :=
  [("kind", .text c.shape.name), ("lower", .amount c.corners.lower),
    ("peak_left", .amount c.corners.peakLeft), ("peak_right", .amount c.corners.peakRight),
    ("upper", .amount c.corners.upper), ("cap", .amount c.cap), ("is_monotone", .flag c.isMonotone),
    ("segments", .list (c.segments.map Segment.toDatum))]

/-- A limit as an amount. -/
def Limit.toDatum : Limit Float → Datum
  | .upTo x => .amount x
  | .endless => .amount (1.0 / 0.0)

def Level.toDatum (l : Level Float) : Datum :=
  .record [("value", .amount l.value), ("reward", .amount l.reward), ("label", .text l.label)]

/-! ## Goals -/

def FuzzyGoal.toDatum (g : FuzzyGoal Float) : Datum :=
  .record [("id", .text g.id), ("variable_index", .nat g.index),
    ("membership", .record g.curve.toFields), ("priority", .whole g.priority),
    ("weight", .amount g.weight), ("description", .text g.description)]

def LadderGoal.toDatum (g : LadderGoal Float) : Datum :=
  .record [("id", .text g.id), ("variable_index", .nat g.index),
    ("levels", .list (g.levels.map Level.toDatum)), ("priority", .whole g.priority),
    ("weight", .amount g.weight), ("description", .text g.description)]

def DeviationGoal.toDatum (g : DeviationGoal Float) : Datum :=
  .record [("id", .text g.id), ("variable_index", .nat g.index), ("target", .amount g.target),
    ("goal_type", .text g.side.name), ("priority", .whole g.priority), ("weight", .amount g.weight),
    ("description", .text g.description)]

/-! ## Results -/

def Answer.toDatum (a : Answer Float) : Datum :=
  .record [("status", .text a.status.text), ("solution", .amounts a.solution),
    ("objective_value", .ofOption .amount a.objective), ("iterations", .nat a.iterations)]

def FuzzyResult.toDatum (r : FuzzyResult Float) : Datum :=
  .record [("variable_values", .ofLedger .amount r.variableValues),
    ("goal_memberships", .ofLedger .amount r.goalMemberships),
    ("goal_values", .ofLedger .amount r.goalValues),
    ("total_membership", .amount r.totalMembership),
    ("average_membership", .amount r.averageMembership),
    ("weighted_membership", .amount r.weightedMembership), ("achieved_goals", .texts r.achieved),
    ("partial_goals", .texts r.partly), ("unachieved_goals", .texts r.unachieved),
    ("iterations", .nat r.iterations), ("method", .text r.method.name),
    ("is_feasible", .flag r.isFeasible)]

def LadderResult.toDatum (r : LadderResult Float) : Datum :=
  .record [("variable_values", .ofLedger .amount r.variableValues),
    ("goal_levels", .ofLedger .text r.goalLevels), ("goal_values", .ofLedger .amount r.goalValues),
    ("total_reward", .amount r.totalReward), ("max_possible_reward", .amount r.maxReward),
    ("reward_ratio", .amount r.rewardRatio), ("achieved_goals", .texts r.achieved),
    ("ideal_goals", .texts r.ideal), ("iterations", .nat r.iterations),
    ("method", .text r.method.name), ("is_feasible", .flag r.isFeasible)]

def DeviationResult.toDatum (r : DeviationResult Float) : Datum :=
  .record [("status", .text r.status.text), ("variable_values", .ofLedger .amount r.variableValues),
    ("goal_deviations", .ofLedger .amount r.goalDeviations), ("achieved_goals", .texts r.achieved),
    ("unachieved_goals", .texts r.unachieved), ("total_deviation", .amount r.totalDeviation),
    ("iterations", .nat r.iterations), ("is_feasible", .flag r.isFeasible)]

/-! ## Buckets -/

def BucketItem.toDatum (i : BucketItem Float) : Datum :=
  .record [("id", .text i.id), ("name", .text i.name), ("kind", .text i.kind.name),
    ("priority", .whole i.priority), ("weight", .amount i.weight),
    ("levels", .list (i.levels.map Level.toDatum)), ("allocated", .amount i.allocated),
    ("achieved_level", .text i.label), ("reward", .amount i.reward)]

def Bucket.toDatum (b : Bucket Float) : Datum :=
  .record [("name", .text b.purpose.name), ("percent", .amount b.percent),
    ("budget", .amount b.budget), ("allocated", .amount b.allocated),
    ("remaining", .amount b.remaining), ("items", .list (b.items.map BucketItem.toDatum))]

def Detail.toDatum (d : Detail Float) : Datum :=
  .record [("id", .text d.id), ("name", .text d.name), ("kind", .text d.kind.name),
    ("phase", .nat d.phase), ("bucket", .text (d.purpose.elim "" Purpose.name)),
    ("amount", .amount d.amount), ("level", .text d.level), ("reward", .amount d.reward)]

/-- A result by buckets as a record. There is one only if the commitments are covered. -/
def HybridResult.toDatum (r : HybridResult Float) : Datum :=
  .record [("mandatory_allocations", .ofLedger .amount r.mandatory),
    ("debt_min_allocations", .ofLedger .amount r.debtMinimums),
    ("flexible_min_allocations", .ofLedger .amount r.flexibleMinimums),
    ("phase1_total", .amount r.phase1Total), ("surplus", .amount r.surplus),
    ("buckets", .record (r.buckets.map fun b => (b.purpose.name, b.toDatum))),
    ("final_allocations", .ofLedger Detail.toDatum r.final),
    ("total_allocated", .amount r.totalAllocated), ("total_reward", .amount r.totalReward),
    ("max_possible_reward", .amount r.maxReward), ("is_feasible", .flag true)]

end GoalBudget
