import Aquarium.CommandLine.Standard

/-!
# The command

Connects the command line of the library to the system: files, standard streams, random bytes and
the exit code.
-/

namespace Aquarium

/-- A system error as a fault in reading. -/
def ReadFault.ofSystem : IO.Error → ReadFault
  | .noFileOrDirectory _ _ _ => .notFound
  | .inappropriateType _ 21 _ => .isDirectory
  | .inappropriateType _ _ _ => .notDirectory
  | e => .system (toString e)

/-- Reads a stream to its end. -/
partial def readAll (stream : IO.FS.Stream) (done : ByteArray) : IO ByteArray := do
  let chunk ← stream.read 65536
  if chunk.isEmpty then return done else readAll stream (done ++ chunk)

/-- Whether there is a file at a path.  A directory can be opened, but nothing can be read from
it; a file that may not be opened is still a file. -/
def existsAsFile (path : String) : IO Bool := do
  let attempt : IO Unit := do
    let handle ← IO.FS.Handle.mk path .read
    let _ ← handle.read 1
  match ← attempt.toBaseIO with
  | .ok _ => return true
  | .error (.permissionDenied _ _ _) => return true
  | .error _ => return false

/-- The system the command runs on. -/
def systemHost : Host IO :=
  { readFile := fun path => do
      match ← (IO.FS.readBinFile path).toBaseIO with
      | .ok bytes => return .ok bytes
      | .error e => return .error (.ofSystem e)
    isFile := existsAsFile
    readInput := do
      match ← (readAll (← IO.getStdin) .empty).toBaseIO with
      | .ok bytes => return .ok bytes
      | .error e => return .error (.ofSystem e) }

/-- Dice with a random key. -/
def randomDice : IO Dice := do
  return Dice.ofBytes (← IO.getRandomBytes 32).toList

end Aquarium

open Aquarium

/-- Runs the command and gives its exit code. -/
def main (args : List String) : IO UInt32 := do
  match ← CommandLine.execute .standard (← randomDice) systemHost args with
  | some (.answered success output errors) =>
      let stdout ← IO.getStdout
      stdout.putStr output
      stdout.flush
      for line in errors do
        IO.eprintln line
      return if success then 0 else 1
  | some .refused =>
      IO.eprintln "error: the command line was not understood"
      return 2
  | none => return 1
