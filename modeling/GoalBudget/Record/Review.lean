import GoalBudget.Allocation.Basic
import GoalBudget.Record.Fields
import GoalBudget.Review.Report

/-!
# Records of allocations and reviews

An allocation is read from a record and written as one; summaries, concerns, prospects, impacts and
reports are only written (section 10.5 of the specification says what they hold). A payment is read
from a list of two or three amounts.

A prospect without an allocation has nothing in its place, and so has a change of income that is not
covered in place of its effects. Prospects and sensitivity are fields of a report only if they
were asked for.
-/

namespace GoalBudget

/-! ## Allocations -/

/-- A payment from its total, the required part and, if there is one, the extra part. -/
def Payment.ofDatum (d : Datum) : Except (Fault Float) (Payment Float) := do
  match ← (← d.readList).mapM Datum.readAmount with
  | [total, minimum] => return ⟨total, minimum, 0⟩
  | [total, minimum, extra] => return ⟨total, minimum, extra⟩
  | _ => throw .malformed

def Allocation.ofFields (f : Fields) : Except (Fault Float) (Allocation Float) := do
  f.check []
    ["category_allocations", "goal_allocations", "debt_allocations", "total_allocated", "surplus",
      "feasibility_score", "solver_iterations", "achieved_goals", "unachieved_goals", "solver_type"]
  let debts ← f.ledger "debt_allocations" Payment.ofDatum
  let categories ← f.ledger "category_allocations" Datum.readAmount
  let goals ← f.ledger "goal_allocations" Datum.readAmount
  check {
    categories, goals, debts
    allocated := ← f.amount "total_allocated" 0
    surplus := ← f.amount "surplus" 0
    score := ← f.amount "feasibility_score" 0
    iterations := ← f.whole "solver_iterations" 0
    achieved := ← f.list "achieved_goals" Datum.readText
    unachieved := ← f.list "unachieved_goals" Datum.readText
    strategy := ← f.text "solver_type" "fuzzy" }

def Payment.toDatum (p : Payment Float) : Datum :=
  .record [("total_payment", .amount p.total), ("minimum_payment", .amount p.minimum),
    ("extra_payment", .amount p.extra)]

/-- The fields of an allocation's record. -/
def Allocation.toFields (a : Allocation Float) : List (String × Datum) :=
  [("category_allocations", .ofLedger .amount a.categories),
    ("goal_allocations", .ofLedger .amount a.goals),
    ("debt_allocations", .ofLedger Payment.toDatum a.debts),
    ("total_allocated", .amount a.allocated), ("surplus", .amount a.surplus),
    ("feasibility_score", .amount a.score), ("solver_iterations", .whole a.iterations),
    ("achieved_goals", .texts a.achieved), ("unachieved_goals", .texts a.unachieved),
    ("solver_type", .text a.strategy)]

def Allocation.toDatum (a : Allocation Float) : Datum := .record a.toFields

/-! ## Reviews -/

def Summary.toDatum (s : Summary Float) : Datum :=
  .record [("total_income", .amount s.totalIncome), ("total_allocated", .amount s.totalAllocated),
    ("surplus", .amount s.surplus), ("mandatory_expenses", .amount s.mandatory),
    ("flexible_expenses", .amount s.flexible), ("total_debt_payments", .amount s.debts),
    ("total_goal_contributions", .amount s.goals), ("savings_rate", .amount s.savingsRate)]

def Concern.toDatum (c : Concern Float) : Datum :=
  .record [("severity", .text c.severity.name), ("category", .text c.area.name),
    ("message", .text c.headline), ("suggestions", .texts c.suggestions)]

def Prospect.toDatum (p : Prospect Float) : Datum :=
  .record [("scenario_type", .text p.preset.name), ("is_feasible", .flag p.isFeasible),
    ("feasibility_score", .amount p.score),
    ("allocation", .ofOption (·.1.toDatum) p.result),
    ("summary", .ofOption (·.2.toDatum) p.result),
    ("warnings", .list (p.concerns.map Concern.toDatum))]

/-- The deficit of a change of income, zero where there is none. -/
def IncomeEffect.deficit : IncomeEffect Float → Float
  | uncovered deficit => deficit
  | shifted _ => 0

def IncomeImpact.toDatum (i : IncomeImpact Float) : Datum :=
  let shift := i.effect.shift?
  .record [("income_change", .amount i.change), ("new_income", .amount i.newIncome),
    ("is_feasible", .flag i.isFeasible), ("deficit", .amount i.effect.deficit),
    ("goal_delta", .ofOption (.amount ·.goals) shift),
    ("debt_extra_delta", .ofOption (.amount ·.debtExtra) shift),
    ("flexible_delta", .ofOption (.amount ·.flexible) shift),
    ("surplus_delta", .ofOption (.amount ·.surplus) shift),
    ("affected_goals", .texts (shift.elim [] (·.suffering))),
    ("recommendation", .text i.recommendation)]

def DebtImpact.toDatum (d : DebtImpact Float) : Datum :=
  .record [("debt_id", .text d.id), ("debt_name", .text d.name), ("old_rate", .amount d.oldRate),
    ("new_rate", .amount d.newRate), ("extra_monthly_interest", .amount d.monthlyInterest),
    ("new_priority", .whole d.newTier)]

def RateImpact.toDatum (r : RateImpact Float) : Datum :=
  .record [("rate_change", .amount r.change),
    ("affected_debts", .list (r.debts.map DebtImpact.toDatum)),
    ("total_extra_interest", .amount r.monthlyInterest),
    ("strategy_change_needed", .flag r.changesOrder),
    ("recommended_action", .text r.recommendation)]

def WeightImpact.toDatum (w : WeightImpact Float) : Datum :=
  .record [("goal_id", .text w.id), ("goal_name", .text w.name),
    ("current_priority", .text w.priority.name), ("current_allocation", .amount w.current),
    ("if_higher_priority", .amount w.ifHigher), ("if_lower_priority", .amount w.ifLower),
    ("sensitivity", .text w.sensitivity.name)]

def Exposure.toDatum (e : Exposure Float) : Datum :=
  .record [("most_sensitive_to_income", .flag e.isIncomeSensitive),
    ("income_break_even", .amount e.breakEven), ("high_risk_debts", .texts e.highRiskDebts),
    ("most_flexible_goals", .texts e.flexibleGoals), ("overall_risk_level", .text e.risk.name),
    ("key_recommendations", .texts (e.recommendations.map Recommendation.text))]

def Sensitivity.toDatum (s : Sensitivity Float) : Datum :=
  .record [("income_impact", .list (s.income.map IncomeImpact.toDatum)),
    ("rate_impact", .list (s.rates.map RateImpact.toDatum)),
    ("goal_priority_impact", .list (s.weights.map WeightImpact.toDatum)),
    ("summary", s.exposure.toDatum)]

/-- A report as a record: the allocation, how it was made, and what else was asked for. -/
def Report.toDatum (r : Report Float) : Datum :=
  let a := r.allocation
  let detail : Datum :=
    .record [("strategy", .text a.strategy), ("scenario", .text r.scenario.name),
      ("feasibility_score", .amount a.score), ("residual", .amount a.surplus)]
  let prospects := r.prospects.toList.map fun ps =>
    ("scenarios", Datum.list (ps.map Prospect.toDatum))
  let sensitivity := r.sensitivity.toList.map fun s => ("sensitivity", s.toDatum)
  .record (a.toFields ++ [("solver_detail", detail)] ++ prospects ++ sensitivity)

end GoalBudget
