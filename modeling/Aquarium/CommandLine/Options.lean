/-!
# Options

What the user of the command can ask for.  A program can come from one place only.
-/

namespace Aquarium

/-- What the user asked for. -/
structure Options where
  file : Option String := none
  code : Option String := none
  project : Option String := none
  values : List Float := []
  string : Option String := none
  input : Option String := none
  maxSteps : Option Nat := none
  seed : Option Nat := none
  trace : Bool := false
deriving DecidableEq

/-- Whether at most one source of the program is named. -/
def Options.isConsistent (o : Options) : Bool :=
  !(o.code.isSome && (o.file.isSome || o.project.isSome)) && !(o.project.isSome && o.file.isSome)

end Aquarium
