import Aquarium.Compass

/-!
# Mirrors

The instructions that change the heading of the pointer.  All but one are fixed maps of headings;
the exception asks the compass.
-/

namespace Aquarium

/-- An instruction that changes the heading. -/
inductive Mirror where
  | arrow (heading : Heading)
  | slash
  | backslash
  | vertical
  | horizontal
  | reverse
  | random
deriving DecidableEq

namespace Mirror

/-- The mirror a character stands for. -/
def ofChar? : Char → Option Mirror
  | '>' => some (.arrow .east)
  | '<' => some (.arrow .west)
  | '^' => some (.arrow .north)
  | 'v' => some (.arrow .south)
  | '/' => some .slash
  | '\\' => some .backslash
  | '|' => some .vertical
  | '_' => some .horizontal
  | '#' => some .reverse
  | 'x' => some .random
  | _ => none

/-- The name of a mirror. -/
def name : Mirror → String
  | .arrow h => "Arrow(" ++ h.name ++ ")"
  | .slash => "Slash"
  | .backslash => "Backslash"
  | .vertical => "Vertical"
  | .horizontal => "Horizontal"
  | .reverse => "Reverse"
  | .random => "Random"

/-- Where a rising diagonal sends a traveller. -/
def acrossSlash : Heading → Heading
  | .east => .north
  | .north => .east
  | .west => .south
  | .south => .west

/-- Where a falling diagonal sends a traveller. -/
def acrossBackslash : Heading → Heading
  | .east => .south
  | .south => .east
  | .west => .north
  | .north => .west

/-- Where an upright mirror sends a traveller. -/
def acrossVertical : Heading → Heading
  | .east => .west
  | .west => .east
  | h => h

/-- Where a level mirror sends a traveller. -/
def acrossHorizontal : Heading → Heading
  | .north => .south
  | .south => .north
  | h => h

/-- The heading of a traveller after the mirror, and the compass it leaves. -/
def turn {κ : Type} [Compass κ] (m : Mirror) (h : Heading) (compass : κ) : Heading × κ :=
  match m with
  | .arrow h' => (h', compass)
  | .slash => (acrossSlash h, compass)
  | .backslash => (acrossBackslash h, compass)
  | .vertical => (acrossVertical h, compass)
  | .horizontal => (acrossHorizontal h, compass)
  | .reverse => (h.reversed, compass)
  | .random => Compass.draw compass

end Mirror

end Aquarium
