import GoalBudget.Fault.Message
import GoalBudget.Record.Request
import GoalBudget.Record.Program
import GoalBudget.Record.Review
import GoalBudget.Proofs.Ledger.Lookup
import GoalBudget.Proofs.Ledger.Total
import GoalBudget.Proofs.Ledger.Gains
import GoalBudget.Proofs.Allocation.Spread
import GoalBudget.Proofs.Allocation.Trim
import GoalBudget.Proofs.Allocation.Within
import GoalBudget.Proofs.Allocation.Passes
import GoalBudget.Proofs.Allocation.Start
import GoalBudget.Proofs.Strategy.Funds
import GoalBudget.Proofs.Fuzzy.Greedy
import GoalBudget.Proofs.Ladder.Greedy
import GoalBudget.Proofs.Deviation.Preemptive
import GoalBudget.Proofs.Deviation.Linear
import GoalBudget.Proofs.Bucket.Spend
import GoalBudget.Proofs.Bucket.Hybrid
import GoalBudget.Proofs.Strategy.Minimums
import GoalBudget.Proofs.Program.Stated
import GoalBudget.Proofs.Strategy.Affordable
import GoalBudget.Proofs.Strategy.Outcome
import GoalBudget.Proofs.Bucket.Outcome
import GoalBudget.Proofs.Bucket.Conservation
import GoalBudget.Proofs.Allocation.Proposal
import GoalBudget.Proofs.Allocation.Solve
import GoalBudget.Proofs.Allocation.Bounds
import GoalBudget.Proofs.Allocation.Conservation
import GoalBudget.Proofs.Simplex.Canonical
import GoalBudget.Proofs.Simplex.Vertex
import GoalBudget.Proofs.Simplex.Run
import GoalBudget.Proofs.Simplex.Standard
import GoalBudget.Proofs.Simplex.Start
import GoalBudget.Proofs.Simplex.Phases
import GoalBudget.Proofs.Simplex.Bounds
import GoalBudget.Proofs.Simplex.Answer
import GoalBudget.Proofs.Simplex.Basis
import GoalBudget.Proofs.Simplex.Cycle
import GoalBudget.Proofs.Simplex.Visits
import GoalBudget.Proofs.Simplex.Termination
import GoalBudget.Proofs.Simplex.Represented
import GoalBudget.Proofs.Simplex.Unimodular
import GoalBudget.Proofs.Simplex.Integral
import GoalBudget.Proofs.Curve.Chain
import GoalBudget.Proofs.Curve.Checked
import GoalBudget.Proofs.Curve.Drawn
import GoalBudget.Proofs.Curve.Continuous
import GoalBudget.Proofs.Curve.Faithful
import GoalBudget.Proofs.Curve.Joined
import GoalBudget.Proofs.Curve.Monotone
import GoalBudget.Proofs.Curve.Profile
import GoalBudget.Proofs.Curve.Sigmoid
import GoalBudget.Proofs.Fuzzy.Curves
import GoalBudget.Proofs.Fuzzy.Cut
import GoalBudget.Proofs.Fuzzy.Block
import GoalBudget.Proofs.Fuzzy.Encoding
import GoalBudget.Proofs.Fuzzy.Outcome
import GoalBudget.Proofs.Fuzzy.Optimum
import GoalBudget.Proofs.Number.Stable
import GoalBudget.Proofs.Deviation.Lexicographic
import GoalBudget.Proofs.Deviation.Reformulation
import GoalBudget.Proofs.Deviation.Solvable
import GoalBudget.Proofs.Deviation.Unimodular
import GoalBudget.Proofs.Ladder.Outcome
import GoalBudget.Proofs.Deviation.Outcome
import GoalBudget.Proofs.Allocation.Outcome
import GoalBudget.Proofs.Strategy.Fallback
import GoalBudget.Proofs.Program.Stops
import GoalBudget.Proofs.Strategy.Recovery
import GoalBudget.Proofs.Program.Refusal
import GoalBudget.Proofs.Program.Handed
import GoalBudget.Proofs.Program.Agreement
import GoalBudget.Proofs.Program.Reported
import GoalBudget.Proofs.Strategy.Tiers
import GoalBudget.Proofs.Deviation.Tiers
import GoalBudget.Proofs.Ladder.Tiers
import GoalBudget.Proofs.Ladder.Exhausted
import GoalBudget.Proofs.Ladder.Choice
import GoalBudget.Proofs.Ladder.Optimum
import GoalBudget.Proofs.Strategy.Scale
import GoalBudget.Proofs.Deviation.Freeze
import GoalBudget.Proofs.Strategy.Independence
import GoalBudget.Proofs.Review.Feasibility
import GoalBudget.Proofs.Review.Order
import GoalBudget.Proofs.Allocation.Achieved
import GoalBudget.Proofs.Bucket.Exhausted
import GoalBudget.Proofs.Fuzzy.Steps
import GoalBudget.Proofs.Fuzzy.Spent
import GoalBudget.Proofs.Fuzzy.Gains
import GoalBudget.Proofs.Deviation.Monotone
import GoalBudget.Proofs.Review.Direction
import GoalBudget.Proofs.Review.Accounting
import GoalBudget.Proofs.Review.Weights
import GoalBudget.Proofs.Review.Presets
import GoalBudget.Proofs.Allocation.Growth
import GoalBudget.Proofs.Allocation.Turns
import GoalBudget.Proofs.Fuzzy.Score
import GoalBudget.Proofs.Ladder.Score
import GoalBudget.Proofs.Bucket.Score
import GoalBudget.Proofs.Allocation.Score
import GoalBudget.Proofs.Allocation.Payments
