import Aquarium.Host
import Aquarium.Manifest
import Aquarium.Text.Lines

/-!
# Projects

A project is a directory with a manifest and the program that the manifest names.  How the text of
a manifest is read is left open: loading works with any reader.
-/

namespace Aquarium

/-- The name of the manifest in its directory. -/
def manifestName : String := "fish.toml"

/-- Why a project cannot be loaded. -/
inductive LoadFault where
  | manifestUnread (path : String) (cause : ReadFault)
  | manifestMalformed (path cause : String)
  | fieldBlank (field path : String)
  | entryMissing (entry directory : String)
  | entryUnread (path : String) (cause : ReadFault)
deriving DecidableEq

namespace LoadFault

/-- The message of a fault in loading. -/
def message : LoadFault → String
  | .manifestUnread path cause => "failed to read manifest at " ++ path ++ ": " ++ cause.message
  | .manifestMalformed path cause => "failed to parse manifest at " ++ path ++ ": " ++ cause
  | .fieldBlank field path => "missing required field '" ++ field ++ "' in " ++ path
  | .entryMissing entry directory =>
      "entry point '" ++ entry ++ "' not found in project at " ++ directory
  | .entryUnread path cause => "failed to read " ++ path ++ ": " ++ cause.message

end LoadFault

namespace Manifest

/-- A way to read manifests.  What it says about a text that is none is part of the message. -/
abbrev Reader := String → Except String Manifest

/-- Reads the manifest that stands at a path, and refuses one with a blank field. -/
def load (read : Reader) (path text : String) : Except LoadFault Manifest :=
  match read text with
  | .error cause => .error (.manifestMalformed path cause)
  | .ok m =>
      match m.blankField? with
      | some field => .error (.fieldBlank field path)
      | none => .ok m

end Manifest

/-- A manifest and the program it names. -/
structure Project where
  manifest : Manifest
  path : String
  source : String

namespace Project

/-- A path inside a directory.  An absolute path stands for itself. -/
def joinPath (directory path : String) : String :=
  if path.startsWith "/" ∨ directory.isEmpty then path
  else if directory.endsWith "/" then directory ++ path
  else directory ++ "/" ++ path

/-- Loads the project in a directory. -/
def load {m : Type → Type} [Monad m] (read : Manifest.Reader) (h : Host m) (directory : String) :
    ExceptT LoadFault m Project := do
  let manifestPath := joinPath directory manifestName
  let text ← match ← h.readText manifestPath with
    | .ok text => pure text
    | .error cause => throw (.manifestUnread manifestPath cause)
  let manifest ← match Manifest.load read manifestPath text with
    | .ok manifest => pure manifest
    | .error fault => throw fault
  let path := joinPath directory manifest.entry
  if !(← h.isFile path) then throw (.entryMissing manifest.entry directory)
  match ← h.readText path with
  | .ok source => pure { manifest := manifest, path := path, source := Text.stripLineEnd source }
  | .error cause => throw (.entryUnread path cause)

end Project

end Aquarium
