import Aquarium.Fault
import Aquarium.Heading

/-!
# The instruction pointer

A position on a torus and a heading.  Positions are integers because the pointer starts one cell
outside, so that its first step lands on the first cell.

A torus is given by two sizes.  `advance` takes them as integers, and `advanceWords` as 64-bit
words.  A word is read as a signed number (`signed`), and so is the index of a cell to which the
pointer jumps.  Below `2 ^ 63` this is the number itself.
-/

namespace Aquarium

/-- A position and a heading. -/
structure Pointer where
  x : Int
  y : Int
  heading : Heading
deriving DecidableEq

namespace Pointer

/-- One cell to the west of the origin, facing east. -/
def start : Pointer := ⟨-1, 0, .east⟩

/-- A number below `2 ^ 64` as a signed word of 64 bits. -/
def signed (n : Nat) : Int := Int.bmod n (1 <<< 64)

/-- A coordinate on a circle of the given size: the remainder that is not negative.  Of a negative
size the magnitude counts, and a circle without points wraps nothing. -/
def wrap (coordinate size : Int) : Int :=
  if size = 0 then coordinate else coordinate % size

/-- One step ahead on the torus of `width` by `height` cells. -/
def advance (p : Pointer) (width height : Int) : Pointer :=
  { p with x := wrap (p.x + p.heading.dx) width, y := wrap (p.y + p.heading.dy) height }

/-- One step ahead on a torus whose sizes are 64-bit words. -/
def advanceWords (p : Pointer) (width height : Nat) : Pointer :=
  p.advance (signed width) (signed height)

/-- A jump to a cell of the torus, given by two values that have to be its coordinates. -/
def jump (p : Pointer) (x y : Float) (width height : Nat) : Except Fault Pointer :=
  match Number.index? x, Number.index? y with
  | some column, some row =>
      if column < width ∧ row < height then .ok { p with x := signed column, y := signed row }
      else .error (.outside x y)
  | _, _ => .error (.outside x y)

/-- The heading named by a character, taken over by the pointer. -/
def turn (p : Pointer) (c : Char) : Except Fault Pointer :=
  match Heading.ofChar? c with
  | some h => .ok { p with heading := h }
  | none => .error (.unknownHeading c)

end Pointer

end Aquarium
