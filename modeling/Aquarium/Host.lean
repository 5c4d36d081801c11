/-!
# The host system

What the library needs from the system it runs on: to read a file, to ask whether there is one,
and to read the standard input.  A host works in a monad of its own.  One that works in the
identity monad is a plain value, such as the file tree of `Aquarium.FileTree`.
-/

namespace Aquarium

/-- Why something could not be read. -/
inductive ReadFault where
  | notFound
  | notDirectory
  | isDirectory
  | notText
  /-- Anything else, in the words of the system. -/
  | system (message : String)
deriving DecidableEq

/-- The message of a fault in reading. -/
def ReadFault.message : ReadFault → String
  | .notFound => "No such file or directory (os error 2)"
  | .notDirectory => "Not a directory (os error 20)"
  | .isDirectory => "Is a directory (os error 21)"
  | .notText => "stream did not contain valid UTF-8"
  | .system message => message

/-- A system with files and a standard input. -/
structure Host (m : Type → Type) where
  readFile : String → m (Except ReadFault ByteArray)
  isFile : String → m Bool
  readInput : m (Except ReadFault ByteArray)

namespace Host

/-- The text that bytes encode. -/
def decode (bytes : ByteArray) : Except ReadFault String :=
  match String.fromUTF8? bytes with
  | some s => .ok s
  | none => .error .notText

variable {m : Type → Type} [Monad m]

/-- Reads a file as text. -/
def readText (h : Host m) (path : String) : m (Except ReadFault String) := do
  return (← h.readFile path) >>= decode

/-- Reads the standard input as text. -/
def readInputText (h : Host m) : m (Except ReadFault String) := do
  return (← h.readInput) >>= decode

end Host

end Aquarium
