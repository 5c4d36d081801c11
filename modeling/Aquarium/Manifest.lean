import Aquarium.Text.Blank

/-!
# Manifests

A manifest says which program to run and how.  Its name and its entry have to say something.
-/

namespace Aquarium

/-- What to run and how. -/
structure Manifest where
  name : String
  entry : String
  initialStack : List Float := []
  input : String := ""
  maxSteps : Option Nat := none
  seed : Option Nat := none
deriving DecidableEq

/-- The first required field that is blank. -/
def Manifest.blankField? (m : Manifest) : Option String :=
  if Text.isBlank m.name then some "program.name"
  else if Text.isBlank m.entry then some "program.entry"
  else none

end Aquarium
