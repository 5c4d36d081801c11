import Aquarium.Number.Rounded

/-!
# Remainders of doubles

The remainder of two doubles is itself a double, so it can be computed without rounding: both
operands are counted in the same unit and the remainder is that of two natural numbers.
-/

namespace Aquarium.Number

/-- The remainder of the division that truncates towards zero.  It has the sign of the dividend,
and an infinite divisor leaves the dividend as it is. -/
def remainder (dividend divisor : Float) : Float :=
  match read dividend, read divisor with
  | .finite negative units, .finite _ step =>
      if step = 0 then undefined else ofUnits negative (units % step)
  | .finite _ _, .infinite _ => dividend
  | _, _ => undefined

/-- The remainder that takes the sign of the divisor: the truncated one is moved up by one
divisor and reduced again.  The sum in between is an ordinary, rounded sum. -/
def modulo (dividend divisor : Float) : Float :=
  remainder (add (remainder dividend divisor) divisor) divisor

end Aquarium.Number
