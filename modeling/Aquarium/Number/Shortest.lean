import Aquarium.Number.Reading

/-!
# The shortest decimal of a double

Among the decimals that round back to a given double, the one written has the fewest digits, and
of those the nearest to the double.  Equivalently: on the coarsest grid of multiples of a power
of ten that has a point in the rounding interval of the double, it is the nearest such point.  A
tie between two points goes to the larger.

`Span` is the rounding interval, counted in quarters of a unit so that its ends are whole;
`shortest` walks the grids from coarse to fine.
-/

namespace Aquarium.Number

/-- The decimal `coefficient * 10 ^ exponent`. -/
structure Decimal where
  coefficient : Nat
  exponent : Int
deriving DecidableEq

/-- The interval of reals that round to a double, in quarters of a unit.  The ends belong to it
when `closed` holds. -/
structure Span where
  low : Nat
  middle : Nat
  high : Nat
  closed : Bool

/-- The rounding interval of a positive number of units.  It reaches half a step up and half a
step down, and the step down from a power of two is only half as long unless the doubles below
are subnormal.  The ends round to an even significand only. -/
def Span.ofUnits (units : Nat) : Span :=
  let shift := spareBits units
  let significand := units >>> shift
  let step := 1 <<< shift
  let down := if significand = 1 <<< 52 ∧ shift ≠ 0 then step else 2 * step
  { low := 4 * units - down
    middle := 4 * units
    high := 4 * units + 2 * step
    closed := significand % 2 = 0 }

/-- Both sides of a comparison between `coefficient * 10 ^ exponent` and a number of quarter
units, brought to whole numbers: `scales e = (a, b)` compares `coefficient * a` with
`quarters * b`. -/
def scales (exponent : Int) : Nat × Nat :=
  if 0 ≤ exponent then ((4 * Nat.pow 10 exponent.toNat) <<< places, 1)
  else (4 <<< places, Nat.pow 10 (-exponent).toNat)

/-- Whether `coefficient * 10 ^ exponent` lies in the interval. -/
def Span.contains (s : Span) (d : Decimal) : Bool :=
  let (a, b) := scales d.exponent
  let point := d.coefficient * a
  if s.closed then s.low * b ≤ point && point ≤ s.high * b
  else s.low * b < point && point < s.high * b

/-- The point of the grid of multiples of `10 ^ exponent` that is nearest to the middle, if a
point of that grid lies in the interval. -/
def Span.onGrid? (s : Span) (exponent : Int) : Option Decimal :=
  let (a, b) := scales exponent
  let target := s.middle * b
  let below : Decimal := ⟨target / a, exponent⟩
  let above : Decimal := ⟨target / a + 1, exponent⟩
  match s.contains below && below.coefficient != 0, s.contains above with
  | true, true => some (if 2 * (target % a) < a then below else above)
  | true, false => some below
  | false, true => some above
  | false, false => none

/-- Walks the grids from `10 ^ exponent` on to finer ones, at most `count` of them. -/
def Span.firstOnGrid? (s : Span) : Nat → Int → Option Decimal
  | 0, _ => none
  | count + 1, exponent =>
      match s.onGrid? exponent with
      | some d => some d
      | none => s.firstOnGrid? count (exponent - 1)

/-- The shortest decimal that rounds back to a positive number of units.  The walk starts above
the number, at a power of ten with more digits than its whole part, and ends at the latest on the
grid of `10 ^ (-1074)`, where the exact decimal expansion lies. -/
def shortest (units : Nat) : Decimal :=
  let start := (Nat.toDigits 10 (units >>> places)).length
  ((Span.ofUnits units).firstOnGrid? (start + places + 1) start).getD ⟨0, 0⟩

end Aquarium.Number
