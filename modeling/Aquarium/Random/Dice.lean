import Aquarium.Compass
import Aquarium.Random.ChaCha

/-!
# Dice

A compass that draws its headings from a keyed stream of random words.
-/

namespace Aquarium

/-- A place in a keyed stream of random words. -/
structure Dice where
  key : Random.Key
  position : Nat
deriving DecidableEq

namespace Dice

/-- The dice for a seed, at the start of their stream. -/
def ofSeed (seed : Nat) : Dice := ⟨Random.keyOfSeed (UInt64.ofNat seed), 0⟩

/-- The dice for a key of 32 bytes, at the start of their stream.  Bytes that are missing are
zero. -/
def ofBytes (bytes : List UInt8) : Dice := ⟨Random.keyOfBytes bytes, 0⟩

/-- Whether a word is used.  The top two bits name the heading, and a word counts only if the bit
after them is clear. -/
def accepts (w : UInt64) : Bool := w <<< 2 ≤ 0x7FFFFFFFFFFFFFFF

/-- The first position at or after the given one whose word is used, among `fuel` of them. -/
def findAccepted (key : Random.Key) : Nat → Nat → Option Nat
  | 0, _ => none
  | fuel + 1, position =>
      if accepts (Random.word key position) then some position
      else findAccepted key fuel (position + 1)

/-- Draws a heading from the next word that is used.  One period of the stream is searched: a
stream with no usable word in it has none at all, and then the answer is north. -/
def draw (d : Dice) : Heading × Dice :=
  match findAccepted d.key Random.period d.position with
  | some position =>
      (Heading.ofQuarter (Random.word d.key position >>> 62).toNat,
        { d with position := position + 1 })
  | none => (.north, d)

instance : Compass Dice := ⟨draw⟩

end Dice

end Aquarium
