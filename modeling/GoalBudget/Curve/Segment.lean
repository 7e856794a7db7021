import GoalBudget.Fault
import GoalBudget.Number.Scalar

/-!
# Segments

A segment is one line of a satisfaction curve over a range of amounts. Its value is held between
zero and its cap (`Segment.valueAt`).

Chains of segments are built through anchor points, from the left. An anchor that does not advance
makes no segment; it only raises the satisfaction from which the next one starts, so that the chain
may jump there. If no anchor advances, the chain is a single segment of no width that carries the
satisfaction reached.

The lines that draw a sigmoid are the S-curve approximation of section 4.1 of the specification:
anchors at the fixed satisfactions 0, 0.05, 0.15, 0.35, 0.65, 0.85, 0.95 and 1, and one at 1.05 for
the surplus tier, at 120 % of the upper end. The peaks say where the steep part begins and ends;
each of them that is out of place is replaced on its own.
-/

namespace GoalBudget

/-- One line of a satisfaction curve. -/
structure Segment (α : Type) where
  lower : α
  upper : α
  /-- Satisfaction per unit. -/
  slope : α
  /-- Satisfaction of the line at zero. -/
  intercept : α
  /-- Satisfaction never exceeds this on the segment. -/
  cap : α
  deriving Repr

namespace Segment

variable {α : Type} [Scalar α]

/-- The satisfaction of an amount on the segment. -/
def valueAt (s : Segment α) (x : α) : α := least (greatest (s.slope * x + s.intercept) 0) s.cap

/-- The middle of the range. -/
def midpoint (s : Segment α) : α := (s.lower + s.upper) / 2

/-- The length of the range. -/
def width (s : Segment α) : α := s.upper - s.lower

/-- The line from one anchor to the next, capped at the satisfaction of the second. -/
def between (xa ma xb mb : α) : Segment α :=
  let slope := if xb == xa then 0 else (mb - ma) / (xb - xa)
  ⟨xa, xb, slope, ma - slope * xa, mb⟩

/-- A level line. -/
def level (lower upper value : α) : Segment α := ⟨lower, upper, 0, value, value⟩

/-- The lines from an anchor through further ones. An anchor that does not advance only
raises the satisfaction to start from. Also the anchor at which the chain stands in the end. -/
def chain (xa ma : α) : List (α × α) → List (Segment α) × (α × α)
  | [] => ([], (xa, ma))
  | (xb, mb) :: rest =>
    if xb ≤ xa then chain xa (greatest ma mb) rest
    else
      let (segments, last) := chain xb mb rest
      (between xa ma xb mb :: segments, last)

/-- The chain of lines through anchors. If none advances it is a step: a segment of no
width at the first anchor that carries the satisfaction reached. -/
def through : List (α × α) → Except (Fault α) (List (Segment α))
  | [] => .error .positionOutOfRange
  | (x, m) :: rest =>
    match chain x m rest with
    | ([], (xa, ma)) => .ok [level xa xa ma]
    | (segments, _) => .ok segments

/-- The satisfactions that the sigmoid takes at its breakpoints below the surplus tier. -/
def sigmoidLevels : List α := [0, 0.05, 0.15, 0.35, 0.65, 0.85, 0.95, 1]

/-- The breakpoints of the sigmoid, given where its steep part begins and ends. -/
def sigmoidPoints (lower left right upper : α) : List α :=
  let inner := right - left
  [lower, lower + 0.5 * (left - lower), left, left + inner / 3, left + 2 * inner / 3, right,
    right + 0.5 * (upper - right), upper]

/-- Lines that rise like a sigmoid from `lower` to `upper`, with a surplus tier that reaches
a satisfaction of 1.05 at 120 % of `upper`. The peaks are where the steep part begins and ends;
one outside the range is replaced by 30 % or 70 % of it. -/
def sigmoid (lower peakLeft peakRight upper : α) : Except (Fault α) (List (Segment α)) :=
  if upper ≤ lower then .ok [level lower upper 1]
  else
    let span := upper - lower
    let left := if peakLeft ≤ lower ∨ upper ≤ peakLeft then lower + 0.3 * span else peakLeft
    let right := if peakRight ≤ left ∨ upper ≤ peakRight then lower + 0.7 * span else peakRight
    let points := (sigmoidPoints lower left right upper).zip sigmoidLevels
    let surplus := upper * 1.2
    through (if upper < surplus then points ++ [(surplus, 1.05)] else points)

end Segment

end GoalBudget
