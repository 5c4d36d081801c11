import Aquarium.Entries
import Aquarium.Host

/-!
# File trees

A tree of directories and files, and the way a path leads through it.  Paths are relative to the
root of the tree.  Nothing is known of the rest of the system: what lies above the root, and where
a path with a slash in front starts, is an empty directory.
-/

namespace Aquarium

/-- A file with its content or a directory with its entries. -/
inductive FileTree where
  | file (content : ByteArray)
  | directory (entries : List (String × FileTree))

namespace FileTree

/-- A directory without entries. -/
def empty : FileTree := .directory []

/-- Adds a tree at a path of names.  Directories on the way are made where they are missing, and
a directory that is there already is kept. -/
def insert : FileTree → List String → FileTree → FileTree
  | .directory entries, [], .directory [] => .directory entries
  | _, [], new => new
  | .directory entries, name :: path, new =>
      .directory
        (Entries.put name (insert ((entries.lookup name).getD empty) path new) entries)
  | .file content, _ :: _, _ => .file content

/-- Follows the parts of a path.  Only directories have parts, a dot stays, and two dots go back
to the directory above, of which those passed on the way are known. -/
def walk : List FileTree → FileTree → List String → Except ReadFault FileTree
  | _, t, [] => .ok t
  | _, .file _, _ :: _ => .error .notDirectory
  | above, .directory entries, part :: path =>
      if part = "" ∨ part = "." then walk above (.directory entries) path
      else if part = ".." then
        match above with
        | t :: above => walk above t path
        | [] => walk [] empty path
      else
        match entries.lookup part with
        | some t => walk (.directory entries :: above) t path
        | none => .error .notFound

/-- What a path leads to. -/
def resolve (root : FileTree) (path : String) : Except ReadFault FileTree :=
  if path.isEmpty then .error .notFound
  else walk [] (if path.startsWith "/" then empty else root) (path.splitOn "/")

/-- The content of the file at a path. -/
def read (root : FileTree) (path : String) : Except ReadFault ByteArray :=
  match root.resolve path with
  | .ok (.file content) => .ok content
  | .ok (.directory _) => .error .isDirectory
  | .error f => .error f

/-- Whether a path leads to a file. -/
def isFile (root : FileTree) (path : String) : Bool :=
  match root.resolve path with
  | .ok (.file _) => true
  | _ => false

/-- The host with these files and the given standard input. -/
def host (root : FileTree) (input : ByteArray) : Host Id :=
  { readFile := root.read
    isFile := root.isFile
    readInput := .ok input }

end FileTree

end Aquarium
