import Aquarium.Machine

/-!
# A machine as text

The dump of a machine shows its pointer, its phase, its stack of stacks, how many steps it made
and the fault that ended it.  The grid, the queues and the compass are left out, which two dots
at the end say.
-/

namespace Aquarium.Dump

open Number (literal digitText integerText)

/-- Named fields in braces after a name. -/
def record (name : String) (fields : List String) : String :=
  name ++ " \x7b " ++ ", ".intercalate fields ++ " \x7d"

/-- One named field. -/
def field (name value : String) : String := name ++ ": " ++ value

/-- Items in square brackets. -/
def bracketed (items : List String) : String := "[" ++ ", ".intercalate items ++ "]"

/-- A value that may be missing. -/
def optional : Option String → String
  | some s => "Some(" ++ s ++ ")"
  | none => "None"

/-- A pointer. -/
def pointer (p : Pointer) : String :=
  record "InstructionPointer"
    [field "x" (integerText p.x), field "y" (integerText p.y), field "direction" p.heading.name]

/-- A frame with its values, bottom first. -/
def frame (f : Frame) : String :=
  record "Frame"
    [field "values" (bracketed (f.values.reverse.map literal)),
      field "register" (optional (f.register.map literal))]

/-- A stack of stacks, the outermost frame set aside first. -/
def stack (s : Stack) : String :=
  record "StackMachine"
    [field "active" (frame s.active), field "archive" (bracketed (s.archive.reverse.map frame))]

/-- A phase. -/
def phase : Phase → String
  | .running => "Running"
  | .reading quote => "ReadingString(" ++ Text.quotedChar quote ++ ")"
  | .halted => "Terminated(Normal)"
  | .failed => "Terminated(Error)"

/-- A machine. -/
def machine {κ : Type} (m : Machine κ) : String :=
  record "Program"
    [field "ip" (pointer m.pointer), field "state" (phase m.phase), field "stack" (stack m.stack),
      field "steps" (digitText m.steps), field "error" (optional (m.fault?.map Fault.form)), ".."]

end Aquarium.Dump
