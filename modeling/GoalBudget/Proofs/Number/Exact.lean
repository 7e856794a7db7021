import GoalBudget.Number.Limit
import Mathlib.Algebra.BigOperators.Ring.List
import Mathlib.Algebra.Order.BigOperators.Group.List
import Mathlib.Data.Rat.Floor
import Mathlib.Tactic.Linarith
import Mathlib.Tactic.Ring

/-!
# Exact arithmetic

Over `Rat` no value is undefined or infinite, and the operations of `Scalar` are the ordinary ones:
`least` is the minimum, `greatest` the maximum, `magnitude` the absolute value, `total` the sum. The
lemmas here say so, one per operation, and are simp lemmas; what is proved about amounts later goes
through them and never unfolds an operation.

The choice that the operations make among equal arguments is invisible here, since equal rational
numbers are the same. So nothing that is proved over `Rat` depends on it.

The last section is about limits: an amount held down to a limit, or a limit drawn in to an amount,
is a minimum where the limit is an amount.
-/

namespace GoalBudget

variable (a b : Rat)

/-- Which of two equal values is kept does not matter. -/
@[simp] theorem least_eq_min : least a b = min a b := by
  unfold least
  split
  next h => exact (min_eq_right (le_of_lt h)).symm
  next h => exact (min_eq_left (not_lt.mp h)).symm

/-- Which of two equal values is kept does not matter here either. -/
@[simp] theorem greatest_eq_max : greatest a b = max a b := by
  unfold greatest
  split
  next h => exact (max_eq_right (le_of_lt h)).symm
  next h => exact (max_eq_left (not_lt.mp h)).symm

/-- The distance from zero is the absolute value. -/
@[simp] theorem magnitude_eq_abs : magnitude a = |a| := by
  unfold magnitude
  split
  next h => exact (abs_of_neg h).symm
  next h => exact (abs_of_nonneg (not_lt.mp h)).symm

theorem foldl_add_eq (xs : List Rat) : xs.foldl (· + ·) a = a + xs.sum := by
  induction xs generalizing a with
  | nil => rw [List.foldl_nil, List.sum_nil, add_zero]
  | cons x xs ih => rw [List.foldl_cons, ih, List.sum_cons, add_assoc]

/-- The sum from the left is the sum. -/
@[simp] theorem total_eq_sum (xs : List Rat) : total xs = xs.sum :=
  (foldl_add_eq 0 xs).trans (zero_add _)

/-- An amount that is written down is not negative. -/
theorem literal_not_neg {n : Nat} : ¬(OfNat.ofNat n : Rat) < 0 := not_lt.mpr (Nat.cast_nonneg n)

theorem literal_nonneg {n : Nat} : (0 : Int) ≤ OfNat.ofNat n := Int.natCast_nonneg n

/-- One item changed: the sum grows by the difference. -/
theorem sum_map_modify {τ : Type} (f : τ → Rat) (g : τ → τ) {items : List τ} {i : Nat} {x : τ}
    (h : items[i]? = some x) :
    ((items.modify i g).map f).sum = (items.map f).sum + (f (g x) - f x) := by
  induction items generalizing i with
  | nil => cases h
  | cons item rest ih =>
    cases i with
    | zero =>
      cases h
      rw [List.modify_zero_cons, List.map_cons, List.map_cons, List.sum_cons, List.sum_cons]
      ring
    | succ i =>
      rw [List.modify_succ_cons, List.map_cons, List.map_cons, List.sum_cons, List.sum_cons, ih h]
      ring

/-- No rational number differs from itself. -/
@[simp] theorem isUndefined_rat : isUndefined a = false := by simp [isUndefined]

/-- No rational number is infinite. -/
@[simp] theorem isInfinite_rat : isInfinite a = false := rfl

/-- The test for a value other than zero is exact. -/
@[simp] theorem isNonzero_iff : isNonzero a = true ↔ a ≠ 0 := by simp [isNonzero]

/-- The floor is the ordinary one. -/
@[simp] theorem floor_eq_floor : Scalar.floor a = (⌊a⌋ : Rat) := rfl

/-! ## Limits -/

namespace Limit

/-- There is no infinite rational number, so the endless limit is the constructor. -/
@[simp] theorem unbounded_rat : (unbounded : Limit Rat) = endless := rfl

/-- An amount held down to a bound. -/
@[simp] theorem hold_upTo : (upTo b).hold a = min a b := least_eq_min a b

/-- An endless limit holds nothing down. -/
@[simp] theorem hold_endless : (endless : Limit Rat).hold a = a := rfl

/-- A bound drawn in to an amount. -/
@[simp] theorem drawIn_upTo : (upTo b).drawIn a = min b a := least_eq_min b a

@[simp] theorem drawIn_endless : (endless : Limit Rat).drawIn a = a := rfl

/-- Holding an amount down never raises it. -/
theorem hold_le (l : Limit Rat) : l.hold a ≤ a := by
  cases l with
  | upTo bound => rw [hold_upTo]; exact min_le_left a bound
  | endless => exact le_refl a

/-- Drawing a limit in to an amount gives no more than the amount. -/
theorem drawIn_le (l : Limit Rat) : l.drawIn a ≤ a := by
  cases l with
  | upTo bound => rw [drawIn_upTo]; exact min_le_right bound a
  | endless => exact le_refl a

end Limit

end GoalBudget
