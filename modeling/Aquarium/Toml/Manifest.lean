import Aquarium.Manifest
import Aquarium.Toml.Document

/-!
# Manifests in TOML

A manifest is written as a TOML document.  Its two sections can be given as tables or, by position,
as arrays.  Keys that are not known are ignored, and so is what follows the known positions of an
array.
-/

namespace Aquarium.Manifest

/-! ## Values of a kind -/

/-- A value that is a text. -/
def text? : Toml → Option String
  | .string s => some s
  | _ => none

/-- A value that is a number.  Integers count as numbers. -/
def number? : Toml → Option Float
  | .integer n => some (Number.ofInt n)
  | .float v => some v
  | _ => none

/-- A value that is a list of numbers. -/
def numbers? : Toml → Option (List Float)
  | .array items | .tables items => items.mapM number?
  | _ => none

/-- A value that is a natural number. -/
def natural? : Toml → Option Nat
  | .integer n => if 0 ≤ n then some n.toNat else none
  | _ => none

/-! ## Sections -/

/-- The fields of a section: by name from a table, by position from an array.  A date has no
fields. -/
def fields? (names : List String) : Toml → Option (List (Option Toml))
  | .table _ entries => some (names.map fun name => entries.lookup name)
  | .array items | .tables items =>
      some ((List.range names.length).map fun i => items[i]?)
  | .date => some (names.map fun _ => none)
  | _ => none

/-- A field that has to be there. -/
def required {α : Type} (read : Toml → Option α) (field : Option Toml) : Option α :=
  field.bind read

/-- A field that may be missing. -/
def withDefault {α : Type} (default : α) (read : Toml → Option α) : Option Toml → Option α
  | some v => read v
  | none => some default

/-- The names of the fields of the program section, in order. -/
def programFields : List String := ["name", "entry", "initial_stack", "input"]

/-- The names of the fields of the section of limits, in order. -/
def limitFields : List String := ["max_steps", "seed"]

/-- The manifest with a given program section and no limits. -/
def ofProgram? (program : Toml) : Option Manifest := do
  match ← fields? programFields program with
  | [name, entry, initialStack, input] =>
      pure
        { name := ← required text? name
          entry := ← required text? entry
          initialStack := ← withDefault [] numbers? initialStack
          input := ← withDefault "" text? input }
  | _ => none

/-- The manifest with its limits. -/
def withLimits? (m : Manifest) (limits : Toml) : Option Manifest := do
  match ← fields? limitFields limits with
  | [maxSteps, seed] =>
      pure
        { m with
          maxSteps := ← withDefault none (fun v => some <$> natural? v) maxSteps
          seed := ← withDefault none (fun v => some <$> natural? v) seed }
  | _ => none

/-- The manifest in a document. -/
def ofToml? : Toml → Option Manifest
  | .table _ entries => do
      let m ← ofProgram? (← entries.lookup "program")
      match entries.lookup "limits" with
      | some limits => m.withLimits? limits
      | none => pure m
  | _ => none

/-- Reads a manifest.  Of what is wrong with a text, only the kind of thing is told. -/
def ofText (text : String) : Except String Manifest :=
  match Toml.parse? text with
  | none => .error "the text is not a TOML document"
  | some document =>
      match ofToml? document with
      | none => .error "a value is missing or of the wrong kind"
      | some m => .ok m

end Aquarium.Manifest
