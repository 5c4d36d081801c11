import Aquarium.Number.Shortest
import Aquarium.Number.Whole

/-!
# The text of a number

Three ways to write a double, all of them with its shortest decimal digits.

* `positional` never uses an exponent and writes whole numbers without a point.
* `literal` always shows that the number is a double: whole numbers get `.0`, and very large or
  very small magnitudes are written with an exponent.
* `printed` is what a program prints: as `positional`, but zero has no sign.
-/

namespace Aquarium.Number

/-- The decimal digits of a natural number. -/
def digits (n : Nat) : List Char := Nat.toDigits 10 n

/-- The decimal digits of a natural number as text. -/
def digitText (n : Nat) : String := String.ofList (digits n)

/-- The text of an integer. -/
def integerText (n : Int) : String :=
  if n < 0 then "-" ++ digitText n.natAbs else digitText n.natAbs

/-- Zeros as text. -/
def zeros (n : Nat) : List Char := List.replicate n '0'

/-- A decimal without an exponent.  A fraction below one has a zero in front of the point. -/
def Decimal.positional (d : Decimal) : List Char :=
  let ds := digits d.coefficient
  if 0 ≤ d.exponent then ds ++ zeros d.exponent.toNat
  else
    let places := (-d.exponent).toNat
    if places < ds.length then
      ds.take (ds.length - places) ++ '.' :: ds.drop (ds.length - places)
    else '0' :: '.' :: (zeros (places - ds.length) ++ ds)

/-- A decimal with one digit in front of the point and an exponent. -/
def Decimal.scientific (d : Decimal) : List Char :=
  let ds := digits d.coefficient
  let exponent := d.exponent + (ds.length : Int) - 1
  let mantissa := match ds with
    | lead :: [] => [lead]
    | lead :: rest => lead :: '.' :: rest
    | [] => []
  mantissa ++ 'e' :: (integerText exponent).toList

/-- The sign of a number as text. -/
def signText (negative : Bool) : String := if negative then "-" else ""

/-- The shortest decimal text without an exponent. -/
def positional (v : Float) : String :=
  match read v with
  | .undefined => "NaN"
  | .infinite negative => signText negative ++ "inf"
  | .finite negative units =>
      signText negative ++
        (if units = 0 then "0" else String.ofList (shortest units).positional)

/-- The exponents of ten between which `literal` writes no exponent: from `0.0001` up to, but
not including, `10 ^ 16`. -/
def Decimal.isModerate (d : Decimal) : Bool :=
  let magnitude := d.exponent + ((digits d.coefficient).length : Int) - 1
  decide (-4 ≤ magnitude ∧ magnitude < 16)

/-- The text of a double that shows that it is one. -/
def literal (v : Float) : String :=
  match read v with
  | .undefined => "NaN"
  | .infinite negative => signText negative ++ "inf"
  | .finite negative units =>
      signText negative ++
        (if units = 0 then "0.0"
        else
          let d := shortest units
          if d.isModerate then
            String.ofList (d.positional ++ (if 0 ≤ d.exponent then ['.', '0'] else []))
          else String.ofList d.scientific)

/-- One more than the largest magnitude that `printed` writes as an integer. -/
def integerLimit : Nat := Nat.pow 10 16

/-- What a program prints for a number: integers of up to sixteen digits as such, so that zero
has no sign, and everything else positionally. -/
def printed (v : Float) : String :=
  match integer? v with
  | some n => if n.natAbs < integerLimit then integerText n else positional v
  | none => positional v

end Aquarium.Number
