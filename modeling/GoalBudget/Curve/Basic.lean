import GoalBudget.Curve.Segment

/-!
# Satisfaction curves

A curve says how satisfied a goal is with an amount, from zero up to the cap of the curve. The cap
is one for the classic shapes and may exceed one for chains of lines with a surplus tier. This is
the membership function of section 3 of the specification, in all its variants.

The curves of the first three shapes are given by four corner points, which have to be in ascending
order; `Curve.check` is what every constructor goes through. Equal corners are in order, so a side
of a peak may have no width.

A chain of lines is checked line by line: none ends before it starts, each starts where the one
before ends, but for a billionth, and the caps do not fall (`checkSegments`). Slopes and intercepts
are not looked at. A sigmoid makes its lines from its corners and is not checked any further.
-/

namespace GoalBudget

/-- The points at which a curve changes its direction. -/
structure Corners (α : Type) where
  /-- Where satisfaction starts to rise. -/
  lower : α
  /-- Where the plateau starts. -/
  peakLeft : α
  /-- Where the plateau ends. -/
  peakRight : α
  /-- Where satisfaction has fallen to zero again, or the rise is complete. -/
  upper : α
  deriving Repr

/-- A satisfaction curve: its shape, its corners, and its lines if it is made of lines. -/
structure Curve (α : Type) where
  shape : Shape
  corners : Corners α
  /-- The lines of a piecewise curve or a sigmoid. -/
  segments : List (Segment α)
  deriving Repr

namespace Curve

variable {α : Type} [Scalar α]

/-- Whether two bounds count as the same: equal, or finite and apart by at most a billionth
of the larger one or of one. -/
def meets (a b : α) : Bool :=
  let tolerance : α := 1e-9
  let gap := magnitude (b - a)
  a == b || (!isInfinite a && !isInfinite b &&
    (gap ≤ magnitude (tolerance * b) || gap ≤ magnitude (tolerance * a) || gap ≤ tolerance))

/-- Each segment starts where the one before ends, and its cap is not lower. -/
def checkJoints : List (Segment α) → Except (Fault α) Unit
  | s :: t :: rest =>
    if !meets s.upper t.lower then .error (.segmentsApart s.upper t.lower)
    else if t.cap < s.cap then .error .capsFall
    else checkJoints (t :: rest)
  | _ => .ok ()

/-- No segment ends before it starts, and they form a chain of rising caps. -/
def checkSegments (segments : List (Segment α)) : Except (Fault α) Unit :=
  match segments.find? fun s => s.upper < s.lower with
  | some s => .error (.segmentReversed s.upper s.lower)
  | none => checkJoints segments

/-- A curve from its shape, corners and segments, or the check that it fails. A piecewise
curve takes its outer corners from its segments, a sigmoid its segments from its corners. -/
def check (shape : Shape) (corners : Corners α) (segments : List (Segment α)) :
    Except (Fault α) (Curve α) := do
  match shape with
  | .piecewise =>
    match segments with
    | [] => throw .noSegments
    | first :: rest =>
      checkSegments segments
      let last := rest.getLastD first
      return ⟨shape, ⟨first.lower, corners.peakLeft, corners.peakRight, last.upper⟩, segments⟩
  | .sCurve =>
    let lines ← Segment.sigmoid corners.lower corners.peakLeft corners.peakRight corners.upper
    return ⟨shape, corners, lines⟩
  | _ =>
    if corners.lower ≤ corners.peakLeft ∧ corners.peakLeft ≤ corners.peakRight ∧
        corners.peakRight ≤ corners.upper then
      return ⟨shape, corners, segments⟩
    else
      throw (.cornersOutOfOrder shape corners.lower corners.peakLeft corners.peakRight
        corners.upper)

/-- A line from no satisfaction at `lower` to full satisfaction at `upper`. -/
def linear (lower upper : α) : Except (Fault α) (Curve α) :=
  check .linear ⟨lower, lower, upper, upper⟩ []

/-- Full satisfaction at one point only. -/
def triangular (lower peak upper : α) : Except (Fault α) (Curve α) :=
  check .triangular ⟨lower, peak, peak, upper⟩ []

/-- Full satisfaction on a plateau. -/
def trapezoidal (lower peakLeft peakRight upper : α) : Except (Fault α) (Curve α) :=
  check .trapezoidal ⟨lower, peakLeft, peakRight, upper⟩ []

/-- A chain of lines. -/
def piecewise (segments : List (Segment α)) : Except (Fault α) (Curve α) :=
  check .piecewise ⟨0, 0, 0, 0⟩ segments

/-- The lines through anchors. -/
def throughPoints (points : List (α × α)) : Except (Fault α) (Curve α) := do
  piecewise (← Segment.through points)

/-- A sigmoid from `lower` to `upper`, steep between the peaks. -/
def sCurve (lower peakLeft peakRight upper : α) : Except (Fault α) (Curve α) :=
  check .sCurve ⟨lower, peakLeft, peakRight, upper⟩ []

/-- The largest of the caps, the first segment's cap to start with. -/
def largestCap (first : Segment α) (rest : List (Segment α)) : α :=
  rest.foldl (fun m s => greatest m s.cap) first.cap

/-- The highest satisfaction that the curve returns. -/
def cap (c : Curve α) : α :=
  match c.segments with
  | [] => 1
  | first :: rest => largestCap first rest

/-- Whether satisfaction never falls as the amount grows. -/
def isMonotone (c : Curve α) : Bool := c.shape.isMonotone

end Curve

end GoalBudget
