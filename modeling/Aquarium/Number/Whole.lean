import Aquarium.Number.Reading

/-!
# Whole numbers, indices and characters

A value names a place or a character only if it is exactly a natural number.  Nothing is rounded
or clamped here: a value that is not whole names nothing.
-/

namespace Aquarium.Number

/-- The natural number a double is exactly equal to.  Negative zero is zero. -/
def natural? (v : Float) : Option Nat :=
  match read v with
  | .finite negative units =>
      let n := units >>> places
      if n <<< places = units ∧ (negative = false ∨ units = 0) then some n else none
  | _ => none

/-- The integer a double is exactly equal to. -/
def integer? (v : Float) : Option Int :=
  match read v with
  | .finite negative units =>
      let n := units >>> places
      if n <<< places = units then some (if negative then -(n : Int) else n) else none
  | _ => none

/-- One more than the largest index. -/
def indexBound : Nat := 1 <<< 64

/-- The index a double names: a natural number of at most 64 bits. -/
def index? (v : Float) : Option Nat :=
  (natural? v).filter (· < indexBound)

/-- The character with a given code point, if the code point has one. -/
def scalar? (n : Nat) : Option Char :=
  if h : n.isValidChar then some (Char.ofNatAux n h) else none

/-- The character a double names by its code point. -/
def char? (v : Float) : Option Char :=
  (natural? v).bind scalar?

/-- The code point of a character as a value. -/
def ofChar (c : Char) : Float := ofNat c.toNat

end Aquarium.Number
