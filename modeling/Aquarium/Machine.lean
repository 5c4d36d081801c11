import Aquarium.Emission
import Aquarium.Instruction
import Aquarium.Pointer
import Aquarium.Queue

/-!
# The machine

A machine has a grid, a pointer that walks it, a stack of stacks, a queue of characters to read
and a queue of emissions to be collected.  `step` executes one cell.  A machine never runs on its
own: the host calls `step` until `hasTerminated` holds, and may use the queues in between.

An instruction is a state transformer that may fault (`MachineM`).  A fault keeps the state the
instruction had reached.  `step` records it and ends the machine: the phase only says that there was
a fault, and the record says which.
-/

namespace Aquarium

/-- What a machine is doing. -/
inductive Phase where
  /-- Executing the cells it meets. -/
  | running
  /-- Taking the cells it meets as values, up to the given quote. -/
  | reading (quote : Char)
  /-- Stopped on purpose. -/
  | halted
  /-- Stopped by a fault. -/
  | failed
deriving DecidableEq

/-- Whether nothing will happen any more. -/
def Phase.isFinal : Phase → Bool
  | .halted | .failed => true
  | .running | .reading _ => false

/-- A program at work, with a compass of type `κ`. -/
structure Machine (κ : Type) where
  source : String
  grid : Grid
  pointer : Pointer
  stack : Stack
  input : Queue Char
  output : Queue Emission
  phase : Phase
  compass : κ
  steps : Nat
  /-- The fault on record. -/
  fault? : Option Fault

/-- An action of a machine that may fault. -/
abbrev MachineM (κ : Type) := EStateM Fault (Machine κ)

namespace Machine

variable {κ : Type}

/-- A machine about to execute the first cell of its source, with the given values on the stack,
bottom first. -/
def load (source : String) (values : List Float) (compass : κ) : Machine κ :=
  { source := source
    grid := Grid.ofSource source
    pointer := .start
    stack := .ofValues values
    input := {}
    output := {}
    phase := .running
    compass := compass
    steps := 0
    fault? := none }

/-- Whether the machine has stopped for good. -/
def hasTerminated (m : Machine κ) : Bool := m.phase.isFinal

/-! ## Actions -/

/-- One step of the pointer. -/
def advance (m : Machine κ) : Machine κ :=
  { m with pointer := m.pointer.advance m.grid.width m.grid.height }

/-- The cell under the pointer. -/
def cell? (m : Machine κ) : Option Float := m.grid.cell? m.pointer.x m.pointer.y

/-- An action on the stack as an action of the machine. -/
def onStack {α : Type} (act : StackM α) : MachineM κ α := fun m =>
  match act m.stack with
  | .ok a s => .ok a { m with stack := s }
  | .error f s => .error f { m with stack := s }

/-- An action on the stack and the grid as an action of the machine. -/
def onGrid {α : Type} (act : EStateM Fault (Stack × Grid) α) : MachineM κ α := fun m =>
  match act (m.stack, m.grid) with
  | .ok a (s, g) => .ok a { m with stack := s, grid := g }
  | .error f (s, g) => .error f { m with stack := s, grid := g }

/-- Moves the pointer to the cell named by two values. -/
def jump (x y : Float) : MachineM κ Unit := fun m =>
  match m.pointer.jump x y m.grid.width m.grid.height with
  | .ok p => .ok () { m with pointer := p }
  | .error f => .error f m

/-- Turns the pointer at a mirror. -/
def reflect [Compass κ] (mirror : Mirror) (m : Machine κ) : Machine κ :=
  let (heading, compass) := mirror.turn m.pointer.heading m.compass
  { m with pointer := { m.pointer with heading := heading }, compass := compass }

/-- Appends an emission to the output. -/
def emit (e : Emission) (m : Machine κ) : Machine κ := { m with output := m.output.write e }

/-- Takes the next character of the input as a value.  A queue that refuses, because there is none,
does not end the program: the value is minus one then. -/
def readInput : MachineM κ Float := fun m =>
  match m.input.read with
  | .ok (c, rest) => .ok (Number.ofChar c) { m with input := rest }
  | .error _ => .ok (Number.ofInt (-1)) m

/-- Executes one instruction. -/
def execute [Compass κ] : Instruction → MachineM κ Unit
  | .literal v => onStack (Stack.push v)
  | .mirror mirror => modify (reflect mirror)
  | .skip => modify advance
  | .skipIfZero => do
      let v ← onStack Stack.pop
      if Number.isZero v then modify advance
  | .arithmetic op => onStack (Stack.compute op)
  | .stack command => onStack command.run
  | .grid command => onGrid command.run
  | .jump => do
      let (y, x) ← onStack Stack.popTwo
      jump x y
  | .string quote => modify fun m => { m with phase := .reading quote }
  | .printChar => do
      let v ← onStack Stack.pop
      match Number.char? v with
      | some c => modify (emit (.char c))
      | none => throw (.unprintable v)
  | .printNumber => do
      let v ← onStack Stack.pop
      modify (emit (.number v))
  | .input => do
      let v ← readInput
      onStack (Stack.push v)
  | .halt => modify fun m => { m with phase := .halted }
  | .idle => pure ()

/-- Deals with the value of a cell as the phase demands. -/
def visit [Compass κ] (cell : Float) : MachineM κ Unit := fun m =>
  match m.phase with
  | .reading quote =>
      if Number.char? cell = some quote then .ok () { m with phase := .running }
      else onStack (Stack.push cell) m
  | _ =>
      match Instruction.ofCell cell with
      | .ok i => execute i m
      | .error f => .error f m

/-- Moves on to the next cell and deals with it.  A grid without cells has none. -/
def visitNext [Compass κ] : MachineM κ Unit := fun m =>
  let m := m.advance
  match m.cell? with
  | some cell => visit cell m
  | none => .error (.outside (Number.ofInt m.pointer.x) (Number.ofInt m.pointer.y)) m

/-- Ends the machine with a fault, which goes on record. -/
def fail (f : Fault) (m : Machine κ) : Machine κ := { m with phase := .failed, fault? := some f }

/-- Executes one cell.  A fault of the cell ends the machine; only a machine that has already
ended refuses to make a step. -/
def step [Compass κ] (m : Machine κ) : Except Fault (Machine κ) :=
  if m.hasTerminated then .error .alreadyTerminated
  else
    match visitNext { m with steps := m.steps + 1 } with
    | .ok _ m' => .ok m'
    | .error f m' => .ok (m'.fail f)

/-- Makes up to `n` steps, fewer if the machine ends before. -/
def run [Compass κ] : Nat → Machine κ → Machine κ
  | 0, m => m
  | n + 1, m =>
      match m.step with
      | .ok m' => run n m'
      | .error _ => m

/-- The position of the cell that the next step executes. -/
def nextPosition (m : Machine κ) : Option (Int × Int) :=
  let m := m.advance
  m.cell?.map fun _ => (m.pointer.x, m.pointer.y)

/-! ## The host's side -/

/-- Offers a character to the program. -/
def giveChar (m : Machine κ) (c : Char) : Machine κ := { m with input := m.input.write c }

/-- Offers a text that has to be a single character. -/
def giveText (m : Machine κ) (text : String) : Except Fault (Machine κ) :=
  match text.toList with
  | [c] => .ok (m.giveChar c)
  | _ => .error (.badInput text)

/-- Offers all characters of a text. -/
def feed (m : Machine κ) (text : String) : Machine κ :=
  { m with input := m.input.writeAll text.toList }

/-- Collects the oldest emission. -/
def takeOutput (m : Machine κ) : Except Fault (Emission × Machine κ) :=
  match m.output.read with
  | .ok (e, rest) => .ok (e, { m with output := rest })
  | .error f => .error f

/-- Collects emissions one by one, at most the given number, until there is none left. -/
def takeUpTo : Nat → Machine κ → List Emission × Machine κ
  | 0, m => ([], m)
  | n + 1, m =>
      match m.takeOutput with
      | .ok (e, m') =>
          let (es, m'') := takeUpTo n m'
          (e :: es, m'')
      | .error _ => ([], m)

/-- Collects all emissions. -/
def drainOutput (m : Machine κ) : List Emission × Machine κ :=
  let (es, rest) := m.output.drain
  (es, { m with output := rest })

end Machine

end Aquarium
