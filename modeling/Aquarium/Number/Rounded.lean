import Aquarium.Number.Reading

/-!
# Rounded arithmetic

The four operations and the comparisons of doubles.  Each operation takes its operands exactly,
computes in whole units, and rounds once at the end, to nearest with ties to even.  That is the
arithmetic of the standard, in the form in which it can be reasoned about: the result of an
operation is `ofRatio` of the exact result.
-/

namespace Aquarium.Number

/-- A sign and a number of units as an integer. -/
def signed (negative : Bool) (units : Nat) : Int := if negative then -(units : Int) else units

/-- The infinite double of a given sign. -/
def infinity (negative : Bool) : Float :=
  Float.ofBits (if negative then 0xFFF0000000000000 else 0x7FF0000000000000)

/-- The double nearest to a signed number of units.  A zero takes the given sign. -/
def ofSigned (zeroNegative : Bool) (n : Int) : Float :=
  if n = 0 then ofUnits zeroNegative 0 else ofUnits (n < 0) n.natAbs

/-! ## The four operations -/

/-- The sum.  A sum that is exactly zero is negative only if both operands are. -/
def add (x y : Float) : Float :=
  match read x, read y with
  | .finite s a, .finite t b => ofSigned (s && t) (signed s a + signed t b)
  | .finite _ _, .infinite t => infinity t
  | .infinite s, .finite _ _ => infinity s
  | .infinite s, .infinite t => if s = t then infinity s else undefined
  | _, _ => undefined

/-- The difference. -/
def sub (x y : Float) : Float :=
  match read x, read y with
  | .finite s a, .finite t b => ofSigned (s && !t) (signed s a - signed t b)
  | .finite _ _, .infinite t => infinity (!t)
  | .infinite s, .finite _ _ => infinity s
  | .infinite s, .infinite t => if s = t then undefined else infinity s
  | _, _ => undefined

/-- The product.  Zero times an infinity is undefined. -/
def mul (x y : Float) : Float :=
  match read x, read y with
  | .finite s a, .finite t b => ofRatio (s != t) (a * b) (1 <<< places)
  | .finite s a, .infinite t => if a = 0 then undefined else infinity (s != t)
  | .infinite s, .finite t b => if b = 0 then undefined else infinity (s != t)
  | .infinite s, .infinite t => infinity (s != t)
  | _, _ => undefined

/-- The quotient.  A number divided by zero is infinite, and zero by zero is undefined. -/
def div (x y : Float) : Float :=
  match read x, read y with
  | .finite s a, .finite t b =>
      if b = 0 then (if a = 0 then undefined else infinity (s != t))
      else ofRatio (s != t) (a <<< places) b
  | .finite s _, .infinite t => ofUnits (s != t) 0
  | .infinite s, .finite t _ => infinity (s != t)
  | _, _ => undefined

/-! ## Comparisons -/

/-- Whether two doubles are numerically equal.  The two zeros are. -/
def equal (x y : Float) : Bool :=
  match read x, read y with
  | .finite s a, .finite t b => signed s a == signed t b
  | .infinite s, .infinite t => s == t
  | _, _ => false

/-- Whether a double is numerically smaller than another. -/
def less (x y : Float) : Bool :=
  match read x, read y with
  | .finite s a, .finite t b => signed s a < signed t b
  | .finite _ _, .infinite t => !t
  | .infinite s, .finite _ _ => s
  | .infinite s, .infinite t => s && !t
  | _, _ => false

/-- Whether a double is numerically zero. -/
def isZero (v : Float) : Bool :=
  match read v with
  | .finite _ units => units == 0
  | _ => false

end Aquarium.Number
