import GoalBudget.Curve.Basic

/-!
# Degrees of satisfaction

The satisfaction that a curve gives to an amount, and the largest amount that can still raise it.
This is the evaluation of section 4.1 of the specification.

Under a line the satisfaction rises from zero at the lower corner to one at the upper one and stays
there; under a peak or a plateau it is zero outside, and a side of no width is a jump, decided
before anything is divided. Chains of lines are read from the left: an amount in front of the first
line has no satisfaction, one in a gap has the cap of the line before, and one behind the last line
has the last cap. Where two lines meet, the left one counts.

`degree?` is for the one division that is not guarded, under a line of no width with an amount that
is undefined. `usefulLimit` is where a greedy run stops raising a variable for the sake of a goal:
the end of the plateau, or of the last line.
-/

namespace GoalBudget.Curve

variable {α : Type} [Scalar α]

/-- The satisfaction under a rising line. -/
def risingDegree (k : Corners α) (x : α) : α :=
  if x < k.lower then 0
  else if k.upper ≤ x then 1
  else (x - k.lower) / (k.upper - k.lower)

/-- The satisfaction under a peak or plateau. A side of no width is a jump. -/
def peakedDegree (k : Corners α) (x : α) : α :=
  if x < k.lower ∨ k.upper < x then 0
  else if x < k.peakLeft then
    if k.peakLeft == k.lower then 1 else (x - k.lower) / (k.peakLeft - k.lower)
  else if x ≤ k.peakRight then 1
  else if k.peakRight == k.upper then 1
  else (k.upper - x) / (k.upper - k.peakRight)

/-- The satisfaction along a chain of lines, given the satisfaction `reached` before them:
the value on the first line that contains the amount, and in a gap the cap reached. -/
def chainDegree (reached : α) : List (Segment α) → α → α
  | [], _ => reached
  | s :: rest, x =>
    if x < s.lower then reached
    else if x ≤ s.upper then s.valueAt x
    else chainDegree s.cap rest x

/-- The satisfaction with an amount. -/
def degree (c : Curve α) (x : α) : α :=
  match c.shape with
  | .linear => risingDegree c.corners x
  | .triangular | .trapezoidal => peakedDegree c.corners x
  | .piecewise | .sCurve => chainDegree 0 c.segments x

/-- Whether the satisfaction would be a quotient by zero: an undefined amount under a
rising line of no width. In exact arithmetic it never is. -/
def isSingularAt (c : Curve α) (x : α) : Bool :=
  c.shape == .linear && !(x < c.corners.lower) && !(c.corners.upper ≤ x) &&
    c.corners.upper - c.corners.lower == 0

/-- The satisfaction with an amount, or the fault of dividing by zero. -/
def degree? (c : Curve α) (x : α) : Except (Fault α) α :=
  if c.isSingularAt x then .error .divisionByZero else .ok (c.degree x)

/-- The largest amount that can still raise the satisfaction. -/
def usefulLimit (c : Curve α) : α :=
  match c.shape with
  | .triangular | .trapezoidal => c.corners.peakRight
  | .linear => c.corners.upper
  | .piecewise | .sCurve =>
    match c.segments.getLast? with
    | some s => s.upper
    | none => c.corners.upper

end GoalBudget.Curve
