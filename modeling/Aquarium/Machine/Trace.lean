import Aquarium.Journal
import Aquarium.Machine
import Aquarium.Position

/-!
# What a machine tells about its steps

The journal of a machine is a function of the states it passes through.  `Machine.stepRecords`
gives the records of the next step: the instruction met, frames opened and closed on the stack,
the end of a string, and the fault that ends the machine.
-/

namespace Aquarium

open Number (digitText)

/-- The records of a stack instruction on a given stack. -/
def StackCommand.records (command : StackCommand) (s : Stack) : List Record :=
  match command, command.run s with
  | .openFrame, .ok _ s' =>
      [⟨.debug, .stack, "opened substack of " ++ digitText s'.size ++ " value(s) at depth " ++
        digitText s'.depth⟩]
  | .closeFrame, .ok _ s' =>
      if s.archive.isEmpty then []
      else
        [⟨.debug, .stack, "closed substack returning " ++ digitText s.size ++
          " value(s) to depth " ++ digitText s'.depth⟩]
  | _, _ => []

namespace Machine

variable {κ : Type}

/-- Where the pointer is, as text. -/
def place (m : Machine κ) : String := Position.text (m.pointer.x, m.pointer.y)

/-- The record of a machine that was just loaded. -/
def loadRecord (m : Machine κ) : Record :=
  ⟨.debug, .machine, "loaded " ++ digitText m.grid.width ++ "x" ++ digitText m.grid.height ++
    " program with " ++ digitText m.stack.size ++ " initial value(s)"⟩

/-- The records of meeting the next cell, the pointer being on it already. -/
def visitRecords (m : Machine κ) : List Record :=
  match m.cell? with
  | none => []
  | some cell =>
      match m.phase with
      | .reading quote =>
          if Number.char? cell = some quote then
            [⟨.debug, .machine, "string literal closed at " ++ m.place⟩]
          else []
      | _ =>
          match Instruction.ofCell cell with
          | .error _ => []
          | .ok i =>
              ⟨.trace, .machine, m.place ++ " " ++ m.pointer.heading.name ++ " " ++ i.name⟩ ::
              match i with
              | .stack command => command.records m.stack
              | _ => []

/-- The record of a fault that ended the machine. -/
def faultRecord (m : Machine κ) (f : Fault) : Record :=
  ⟨.debug, .machine, "program terminated at " ++ m.place ++ " after " ++ digitText m.steps ++
    " step(s): " ++ f.message⟩

/-- The records of the next step. -/
def stepRecords [Compass κ] (m : Machine κ) : List Record :=
  match m.step with
  | .error _ => []
  | .ok m' =>
      m.advance.visitRecords ++
        match m'.phase, m'.fault? with
        | .failed, some f => [m'.faultRecord f]
        | _, _ => []

/-- The records of up to `n` steps. -/
def runRecords [Compass κ] : Nat → Machine κ → List Record
  | 0, _ => []
  | n + 1, m =>
      match m.step with
      | .ok m' => m.stepRecords ++ runRecords n m'
      | .error _ => []

end Machine

end Aquarium
