/-!
# Scalars

Every amount, rate, weight and share of the library is a value of one number type, a parameter of
the definitions. `Scalar` lists what a number type has to offer. Two instances exist: `Float`, in
which programs run, and `Rat`, in which theorems are stated. The definitions fix the order of every
operation, so they mean the same rounding steps in `Float` and no rounding at all in `Rat`.

The comparisons of `Float` are not total (a value may be undefined), so the choice among arguments
is part of the meaning: `least` and `greatest` keep the earlier argument unless the later one is
strictly better, and `total` adds from the left, starting at zero.

Three operations can leave the range of a bounded format, and say so: a whole number that is too
large for the type (`Scalar.ofInt?`), a power of a finite base that overflows (`Scalar.power?`), and
the floor of a value that is not a number or has none, which is only asked for after `isUndefined`
and `isInfinite`. Over `Rat` none of this happens, so that a theorem about `Rat` is about the
program wherever the program stays in range and rounds nothing away.
-/

namespace GoalBudget

/-- A number type for amounts: field operations, decidable order, exact
literals, and the few places where a bounded format can leave its range. -/
class Scalar (α : Type) extends Add α, Sub α, Mul α, Div α, Neg α, LT α, LE α, BEq α,
    NatCast α, OfScientific α where
  /-- Whole-number literals. -/
  literal : ∀ n, OfNat α n
  /-- The strict order is decidable. -/
  ltDecidable : DecidableLT α
  /-- The weak order is decidable. -/
  leDecidable : DecidableLE α
  /-- A whole number as a scalar, `none` when it is out of range. -/
  ofInt? : Int → Option α
  /-- A power with a whole exponent, `none` when a finite base leaves the range. -/
  power? : α → Nat → Option α
  /-- Whether the value is an ordinary number, neither infinite nor undefined. -/
  isFinite : α → Bool
  /-- The greatest whole number not above a finite value. -/
  floor : α → α
  /-- The value above all others, if the number type has one. -/
  infinity? : Option α

attribute [reducible, instance] Scalar.literal Scalar.ltDecidable Scalar.leDecidable

/-- Exact arithmetic: nothing overflows and no value is infinite. -/
instance : Scalar Rat where
  toNatCast := inferInstance
  toOfScientific := inferInstance
  toBEq := inferInstance
  literal := fun _ => inferInstance
  ltDecidable := inferInstance
  leDecidable := inferInstance
  ofInt? n := some n
  power? b n := some (b ^ n)
  isFinite _ := true
  floor x := (x.floor : Int)
  infinity? := none

namespace Binary64

/-- The double nearest to a natural number. -/
def ofNat (n : Nat) : Float := Float.ofScientific n false 0

/-- The double nearest to a whole number, `none` beyond the largest double. -/
def ofInt? (n : Int) : Option Float :=
  let x := if n < 0 then -ofNat n.natAbs else ofNat n.natAbs
  if x.isFinite then some x else none

/-- A power, `none` when a finite base gives an infinite result. -/
def power? (b : Float) (n : Nat) : Option Float :=
  let x := Float.pow b (ofNat n)
  if b.isFinite && x.isInf then none else some x

end Binary64

/-- Binary floating point with 53 digits, rounding after every operation. -/
instance : Scalar Float where
  natCast := Binary64.ofNat
  toOfScientific := inferInstance
  toBEq := inferInstance
  literal := fun _ => inferInstance
  ltDecidable := inferInstance
  leDecidable := inferInstance
  ofInt? := Binary64.ofInt?
  power? := Binary64.power?
  isFinite := Float.isFinite
  floor := Float.floor
  infinity? := some (1.0 / 0.0)

section
variable {α : Type} [Scalar α]

/-- The smaller of two values; the first one unless the second is strictly smaller. -/
def least (a b : α) : α := if b < a then b else a

/-- The larger of two values; the first one unless the second is strictly larger. -/
def greatest (a b : α) : α := if a < b then b else a

/-- The distance from zero. -/
def magnitude (a : α) : α := if a < 0 then -a else a

/-- The sum of a list, added from the left. -/
def total (xs : List α) : α := xs.foldl (· + ·) 0

/-- Whether a value is undefined; such a value differs even from itself. -/
def isUndefined (a : α) : Bool := !(a == a)

/-- Whether a value is infinite, of either sign. -/
def isInfinite (a : α) : Bool := !Scalar.isFinite a && !isUndefined a

/-- Whether a value differs from zero; an undefined value does. -/
def isNonzero (a : α) : Bool := !(a == 0)

end

end GoalBudget
