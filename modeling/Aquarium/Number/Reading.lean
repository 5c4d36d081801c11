/-!
# Reading doubles exactly

Every finite double is a whole multiple of the smallest positive one, `2 ^ (-1074)`.  Counting in
that unit turns each finite double into a sign and a natural number, and the arithmetic that has
to be exact (remainders, conversions to indices and characters, the text of a number) becomes
arithmetic on natural numbers.

* `Reading` is what a double stands for, and `read` takes it apart.
* `ofRatio` goes back: it gives the double nearest to a quotient of units, ties to even.
* `ofUnits` and `ofNat` are its two exact special cases.
-/

namespace Aquarium

/-- What a double stands for: a signed number of units, an infinity, or no number at all. -/
inductive Reading where
  | finite (negative : Bool) (units : Nat)
  | infinite (negative : Bool)
  | undefined
deriving DecidableEq

namespace Number

/-- The number one is `2 ^ places` units. -/
def places : Nat := 1074

/-- The double that is no number. -/
def undefined : Float := Float.ofBits 0x7FF8000000000000

/-- Takes a double apart.  A subnormal double is its fraction field; every other finite one has
a leading bit that is not stored, and its exponent field says how far it is shifted. -/
def read (v : Float) : Reading :=
  let bits := v.toBits
  let negative := bits >>> 63 != 0
  let exponent := ((bits >>> 52) &&& 0x7FF).toNat
  let fraction := (bits &&& 0xFFFFFFFFFFFFF).toNat
  if exponent = 2047 then
    if fraction = 0 then .infinite negative else .undefined
  else if exponent = 0 then .finite negative fraction
  else .finite negative (((1 <<< 52) + fraction) <<< (exponent - 1))

/-! ## Rounding back to a double -/

/-- The quotient rounded to the nearest natural number, a half going to the even neighbour. -/
def roundDiv (num den : Nat) : Nat :=
  let quotient := num / den
  let rest := num % den
  if 2 * rest < den then quotient
  else if den < 2 * rest then quotient + 1
  else quotient + quotient % 2

/-- How many low bits of `units` a double has no room for. -/
def spareBits (units : Nat) : Nat := units.log2 - 52

/-- The bits of the double nearest to `num / den` units, without its sign.  The significand is
rounded to at most 53 bits; a carry out of it lands in the exponent field, where it belongs, and
what is too large becomes infinite. -/
def magnitudeBits (num den : Nat) : Nat :=
  let shift := spareBits (num / den)
  min ((shift <<< 52) + roundDiv num (den <<< shift)) (2047 <<< 52)

/-- The double nearest to `num / den` units, ties to even. -/
def ofRatio (negative : Bool) (num den : Nat) : Float :=
  Float.ofBits (UInt64.ofNat ((if negative then 1 <<< 63 else 0) + magnitudeBits num den))

/-- The double nearest to a number of units. -/
def ofUnits (negative : Bool) (units : Nat) : Float := ofRatio negative units 1

/-- The double nearest to a natural number. -/
def ofNat (n : Nat) : Float := ofUnits false (n <<< places)

/-- The double nearest to an integer. -/
def ofInt (n : Int) : Float := ofUnits (n < 0) (n.natAbs <<< places)

end Number

end Aquarium
