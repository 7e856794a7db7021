import GoalBudget.Curve.Basic

/-!
# Curves cut into lines

Every curve, cut into lines that cover a whole range of amounts from zero to a ceiling: a level line
at zero before the curve starts, the lines of the curve, and a level tail. This is the first step of
the linearization of section 4.3 of the specification, where each line gets a binary column later.

A curve with corners has its lines made here, sides of no width left out; a chain or a sigmoid has
them already. The tail keeps the last cap if the curve never falls and is at zero otherwise. Each
line keeps its own slope and intercept, so that the satisfaction along the cut is linear on every
line and not a value at its midpoint.
-/

namespace GoalBudget.Curve

variable {α : Type} [Scalar α]

/-- The one line of a rising curve. -/
def risingPieces (k : Corners α) : List (Segment α) :=
  if k.upper ≤ k.lower then [.level k.lower k.lower 1]
  else
    let slope := 1 / (k.upper - k.lower)
    [⟨k.lower, k.upper, slope, -k.lower * slope, 1⟩]

/-- The lines of a peak or plateau; sides of no width are left out. -/
def peakedPieces (k : Corners α) : List (Segment α) :=
  let rise :=
    if k.lower < k.peakLeft then
      let slope := 1 / (k.peakLeft - k.lower)
      [⟨k.lower, k.peakLeft, slope, -k.lower * slope, 1⟩]
    else []
  let plateau := if k.peakLeft < k.peakRight then [.level k.peakLeft k.peakRight 1] else []
  let fall :=
    if k.peakRight < k.upper then
      let slope := -1 / (k.upper - k.peakRight)
      [⟨k.peakRight, k.upper, slope, 1 - k.peakRight * slope, 1⟩]
    else []
  match rise ++ plateau ++ fall with
  | [] => [.level k.lower k.upper 1]
  | pieces => pieces

/-- The lines of a curve. -/
def pieces (c : Curve α) : List (Segment α) :=
  match c.shape with
  | .linear => risingPieces c.corners
  | .triangular | .trapezoidal => peakedPieces c.corners
  | .piecewise | .sCurve => c.segments

/-- The lines of a curve from zero to a ceiling. The tail keeps the last cap if the curve
never falls, and is zero otherwise. -/
def decompose (c : Curve α) (ceiling : α) : List (Segment α) :=
  let core := c.pieces
  let front :=
    match core.head? with
    | some first => if 0 < first.lower then [.level 0 first.lower 0] else []
    | none => []
  let tail :=
    match core.getLast? with
    | some last =>
      if last.upper < ceiling then
        [.level last.upper ceiling (if c.isMonotone then last.cap else 0)]
      else []
    | none => []
  front ++ core ++ tail

end GoalBudget.Curve
