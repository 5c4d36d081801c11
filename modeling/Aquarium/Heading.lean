/-!
# Headings

The four directions in which a pointer travels.  Columns grow to the east and rows to the south.
-/

namespace Aquarium

/-- A direction of travel. -/
inductive Heading where
  | north
  | east
  | south
  | west
deriving DecidableEq, Inhabited

namespace Heading

/-- The headings in clockwise order from north. -/
def all : List Heading := [.north, .east, .south, .west]

/-- The heading a quarter turn number stands for, counted clockwise from north. -/
def ofQuarter : Nat → Heading
  | 0 => .north
  | 1 => .east
  | 2 => .south
  | _ => .west

/-- The opposite heading. -/
def reversed : Heading → Heading
  | .north => .south
  | .east => .west
  | .south => .north
  | .west => .east

/-- The change of column in one step. -/
def dx : Heading → Int
  | .east => 1
  | .west => -1
  | _ => 0

/-- The change of row in one step. -/
def dy : Heading → Int
  | .north => -1
  | .south => 1
  | _ => 0

/-- The initial letter of a heading. -/
def letter : Heading → Char
  | .north => 'N'
  | .east => 'E'
  | .south => 'S'
  | .west => 'W'

/-- The name of a heading. -/
def name : Heading → String
  | .north => "North"
  | .east => "East"
  | .south => "South"
  | .west => "West"

/-- The heading written by an initial letter or by an arrow. -/
def ofChar? : Char → Option Heading
  | 'N' | '^' => some .north
  | 'E' | '>' => some .east
  | 'S' | 'v' => some .south
  | 'W' | '<' => some .west
  | _ => none

end Heading

end Aquarium
