import Aquarium.CommandLine.Arguments
import Aquarium.CommandLine.Run
import Aquarium.Random.Dice
import Aquarium.Toml.Manifest

/-!
# The tools of the command

The grammar of `Options.parse?` for arguments, TOML for manifests, and dice for headings.
-/

namespace Aquarium

/-- The tools that the command uses. -/
def Tools.standard : Tools Dice :=
  { options? := Options.parse?
    readManifest := Manifest.ofText
    seeded := Dice.ofSeed }

end Aquarium
