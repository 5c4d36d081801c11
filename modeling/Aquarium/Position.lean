import Aquarium.Number.Numeral

/-!
# Positions

Places on the grid as the user names and sees them.  Where positions are listed, they are in order
and without repetition.
-/

namespace Aquarium

/-- A position on the grid: column and row. -/
abbrev Position := Int × Int

namespace Position

/-- Whether a position comes before another, by column and then by row. -/
def precedes (p q : Position) : Bool := p.1 < q.1 || (p.1 == q.1 && p.2 < q.2)

/-- Inserts a position into an ordered list without repetition. -/
def insert (p : Position) : List Position → List Position
  | [] => [p]
  | q :: rest =>
      if p = q then q :: rest
      else if precedes p q then p :: q :: rest
      else q :: insert p rest

/-- A position as text. -/
def text (p : Position) : String :=
  "(" ++ Number.integerText p.1 ++ ", " ++ Number.integerText p.2 ++ ")"

end Position

end Aquarium
