import Aquarium.Number.Rounded

/-!
# Reading numbers from text

A decimal is read as the double nearest to it, ties to even, however many digits it has.  Two
notations are understood: `float?` for doubles and `word?` for natural numbers of at most 64
bits.
-/

namespace Aquarium.Number

/-- The value of a decimal digit. -/
def digitValue (c : Char) : Nat := c.toNat - '0'.toNat

/-- Whether a character is a decimal digit. -/
def isDigit (c : Char) : Bool := '0' ≤ c && c ≤ '9'

/-- The natural number with the given decimal digits. -/
def ofDigits (ds : List Char) : Nat := ds.foldl (fun n c => 10 * n + digitValue c) 0

/-- The double nearest to `coefficient * 10 ^ exponent`.  A decimal with its point far beyond the
range of doubles is told apart by its length, so that no huge power is ever computed. -/
def ofDecimal (negative : Bool) (coefficient : Nat) (exponent : Int) : Float :=
  let length : Int := (Nat.toDigits 10 coefficient).length
  if coefficient = 0 ∨ exponent + length < -400 then ofUnits negative 0
  else if 400 < exponent + length then infinity negative
  else if 0 ≤ exponent then ofUnits negative ((coefficient * Nat.pow 10 exponent.toNat) <<< places)
  else ofRatio negative (coefficient <<< places) (Nat.pow 10 (-exponent).toNat)

/-- A sign in front of a text, and the rest. -/
def splitSign : List Char → Bool × List Char
  | '-' :: cs => (true, cs)
  | '+' :: cs => (false, cs)
  | cs => (false, cs)

/-- The exponent at the end of a number: nothing at all, or a mark and an integer. -/
def exponent? : List Char → Option Int
  | [] => some 0
  | c :: cs =>
      let (negative, ds) := splitSign cs
      if (c = 'e' ∨ c = 'E') ∧ ds ≠ [] ∧ ds.all isDigit then
        some (if negative then -(ofDigits ds : Int) else ofDigits ds)
      else none

/-- A decimal without its sign: digits with at most one point among them, at least one digit, and
an optional exponent. -/
def magnitude? (negative : Bool) (cs : List Char) : Option Float :=
  let (whole, rest) := cs.span isDigit
  let (fraction, rest) := match rest with
    | '.' :: more => more.span isDigit
    | _ => ([], rest)
  if whole = [] ∧ fraction = [] then none
  else
    (exponent? rest).map fun e =>
      ofDecimal negative (ofDigits (whole ++ fraction)) (e - (fraction.length : Int))

/-- The double written by a text: a decimal, or the name of an infinity or of no number in any
mixture of cases. -/
def float? (s : String) : Option Float :=
  let (negative, cs) := splitSign s.toList
  let name := String.ofList (cs.map Char.toLower)
  if name = "inf" ∨ name = "infinity" then some (infinity negative)
  else if name = "nan" then some undefined
  else magnitude? negative cs

/-- The natural number of at most 64 bits written by a text of digits with an optional plus sign
in front. -/
def word? (s : String) : Option Nat :=
  let ds := match s.toList with
    | '+' :: ds => ds
    | ds => ds
  if ds ≠ [] ∧ ds.all isDigit ∧ ofDigits ds < 1 <<< 64 then some (ofDigits ds) else none

end Aquarium.Number
