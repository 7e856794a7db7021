/-!
# Decimal text of binary numbers

Two ways of writing a double in decimal, both computed in exact whole-number arithmetic from its
bits.

* `Dyadic.shortest`: the fewest digits that read back as the same double, and of those the ones
  nearest to it.
* `Dyadic.fixed`: a given number of places, the exact value rounded half to even.

The layout of the result (where positional writing ends, how an exponent looks) is a record,
`Style`; the one used for amounts is `amountStyle`.

A double is taken apart into sign, mantissa and exponent first (`Dyadic.ofBits?`); infinite and
undefined ones have words of their own (`special`). The digits that read back are those in the
interval halfway to both neighbours, whose ends belong to it when the mantissa is even. Below a
power of two the neighbour is half as far away, which is why `Dyadic` keeps that apart.
-/

namespace GoalBudget.Text

/-- A power of two. -/
def twoTo (n : Nat) : Nat := Nat.pow 2 n

/-- A power of ten. -/
def tenTo (n : Nat) : Nat := Nat.pow 10 n

/-- The quotient of two whole numbers rounded to the nearest, a half to the even neighbour. -/
def roundHalfEven (num den : Nat) : Nat :=
  let q := num / den
  let r := num % den
  if 2 * r < den then q else if den < 2 * r then q + 1 else q + q % 2

/-- How many decimal digits a number has; zero has none. -/
def digitCount (n : Nat) : Nat := if n = 0 then 0 else (Nat.toDigits 10 n).length

/-- A finite double: sign, and magnitude `mantissa * 2 ^ exponent`. The gap to the
next smaller double is half as wide when `narrow`. -/
structure Dyadic where
  /-- Whether the sign bit is set. -/
  negative : Bool
  /-- The whole-number factor. -/
  mantissa : Nat
  /-- The power of two. -/
  exponent : Int
  /-- Whether the double below is only half a step away. -/
  narrow : Bool

/-- Decimal digits read as a whole number, times `10 ^ exponent`. -/
structure Digits where
  /-- The digits as a whole number. -/
  coefficient : Nat
  /-- The power of ten. -/
  exponent : Int

namespace Dyadic

/-- The finite double with the given bits; `none` for infinite and undefined ones. -/
def ofBits? (bits : UInt64) : Option Dyadic :=
  let n : Nat := bits.toNat
  let fraction : Nat := n % twoTo 52
  let biased : Nat := n / twoTo 52 % twoTo 11
  let negative : Bool := twoTo 63 ≤ n
  if biased = twoTo 11 - 1 then none
  else if biased = 0 then some ⟨negative, fraction, -1074, false⟩
  else some ⟨negative, fraction + twoTo 52, (biased : Int) - 1075, fraction == 0 && 1 < biased⟩

/-- Four times the magnitude in units of `10 ^ place`, as a numerator and a denominator;
quarters of a step so that the ends of the rounding interval are whole too. -/
def scaled (d : Dyadic) (quarters : Nat) (place : Int) : Nat × Nat :=
  let power := d.exponent - 2
  (quarters * twoTo power.toNat * tenTo (-place).toNat,
    twoTo (-power).toNat * tenTo place.toNat)

/-- The place of the leading digit: the `e` with `10 ^ e ≤ magnitude < 10 ^ (e + 1)`. -/
def leadingPlace (d : Dyadic) : Int :=
  let (num, den) := d.scaled (4 * d.mantissa) 0
  if den ≤ num then (digitCount (num / den) : Int) - 1
  else -(digitCount ((den - 1) / num) : Int)

/-- Whether `c * 10 ^ place` reads back as this double: it lies in the interval of values
that round to it, whose ends belong to it when the mantissa is even. -/
def readsBack (d : Dyadic) (c : Nat) (place : Int) : Bool :=
  let (low, den) := d.scaled (4 * d.mantissa - (if d.narrow then 1 else 2)) place
  let (high, _) := d.scaled (4 * d.mantissa + 2) place
  let x := c * den
  if d.mantissa % 2 = 0 then low ≤ x && x ≤ high else low < x && x < high

/-- The better of the two neighbours of the magnitude among the multiples of `10 ^ place`,
if one of them reads back. -/
def neighbour? (d : Dyadic) (place : Int) : Option Digits :=
  let (num, den) := d.scaled (4 * d.mantissa) place
  let nearest := roundHalfEven num den
  let other := if nearest = num / den then nearest + 1 else num / den
  if d.readsBack nearest place then some ⟨nearest, place⟩
  else if d.readsBack other place then some ⟨other, place⟩
  else none

/-- The first grid, from the coarse to the fine, with a neighbour that reads back. Seventeen
digits always do, so the search is over after as many grids. -/
def search (d : Dyadic) : Nat → Int → Digits
  | 0, place => ⟨let (num, den) := d.scaled (4 * d.mantissa) place; roundHalfEven num den, place⟩
  | grids + 1, place => (d.neighbour? place).getD (d.search grids (place - 1))

/-- The fewest digits that read back as the same double. -/
def shortest (d : Dyadic) : Digits :=
  if d.mantissa = 0 then ⟨0, 0⟩ else d.search 16 d.leadingPlace

/-- The magnitude in units of the last of `places` decimal places, rounded half to even. -/
def fixed (d : Dyadic) (places : Nat) : Nat :=
  let (num, den) := d.scaled (4 * d.mantissa) (-(places : Int))
  roundHalfEven num den

end Dyadic

/-- Where positional writing ends and how an exponent looks. -/
structure Style where
  /-- The smallest place of the leading digit that is written positionally. -/
  lowest : Int
  /-- The largest place of the leading digit that is written positionally. -/
  highest : Int
  /-- The least number of digits of an exponent. -/
  exponentDigits : Nat

/-- Amounts are positional from four places behind the point up to sixteen before it, and an
exponent has a sign and at least two digits. -/
def amountStyle : Style := ⟨-4, 15, 2⟩

/-- The decimal digits of a number, with zeros in front up to a width. -/
def padded (width n : Nat) : String :=
  let digits := Nat.toDigits 10 n
  String.ofList (List.replicate (width - digits.length) '0' ++ digits)

/-- A whole number of units of the last of `places` places, with the point set. -/
def withPoint (places units : Nat) : String :=
  if places = 0 then padded 1 units
  else padded 1 (units / tenTo places) ++ "." ++ padded places (units % tenTo places)

/-- Digits without trailing zeros. -/
def Digits.trim (d : Digits) : Nat → Digits
  | 0 => d
  | n + 1 =>
    if d.coefficient % 10 = 0 && d.coefficient != 0 then
      Digits.trim ⟨d.coefficient / 10, d.exponent + 1⟩ n
    else d

/-- Digits laid out in a style. A whole number keeps one zero behind the point. -/
def Digits.render (style : Style) (digits : Digits) : String :=
  let d := digits.trim 20
  let count := digitCount d.coefficient
  let leading := d.exponent + count - 1
  if d.coefficient = 0 then "0.0"
  else if style.lowest ≤ leading && leading ≤ style.highest then
    if 0 ≤ d.exponent then padded 1 (d.coefficient * tenTo d.exponent.toNat) ++ ".0"
    else withPoint (-d.exponent).toNat d.coefficient
  else
    let behind := count - 1
    let front :=
      if behind = 0 then padded 1 d.coefficient else withPoint behind d.coefficient
    front ++ "e" ++ (if leading < 0 then "-" else "+") ++ padded style.exponentDigits leading.natAbs

/-- The text of an infinite or undefined double. -/
def special (x : Float) : String :=
  if x.isNaN then "nan" else if x < 0 then "-inf" else "inf"

/-- A double in the fewest digits that read back. -/
def shortestText (x : Float) : String :=
  match Dyadic.ofBits? x.toBits with
  | none => special x
  | some d => (if d.negative then "-" else "") ++ d.shortest.render amountStyle

/-- A double with a fixed number of decimal places; the sign of a zero is kept. -/
def fixedText (places : Nat) (x : Float) : String :=
  match Dyadic.ofBits? x.toBits with
  | none => special x
  | some d => (if d.negative then "-" else "") ++ withPoint places (d.fixed places)

end GoalBudget.Text
