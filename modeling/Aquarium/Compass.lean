import Aquarium.Heading

/-!
# Compasses

A compass answers the question where to go next.  A machine works with any compass.  The one given
here reads its answers from a script; `Aquarium.Random.Dice` draws them at random.
-/

namespace Aquarium

/-- A source of headings: each draw gives one and leaves the source for the next draw. -/
class Compass (κ : Type) where
  draw : κ → Heading × κ

/-- A list of headings to be answered in order, and north forever after. -/
structure Script where
  headings : List Heading
deriving DecidableEq

namespace Script

/-- Takes the next heading of the script. -/
def draw : Script → Heading × Script
  | ⟨[]⟩ => (.north, ⟨[]⟩)
  | ⟨h :: rest⟩ => (h, ⟨rest⟩)

instance : Compass Script := ⟨draw⟩

end Script

end Aquarium
