import Aquarium.Grid
import Aquarium.Mirror
import Aquarium.Stack

/-!
# Instructions

One character is one instruction.  `Instruction.ofChar` knows them all, `Instruction.ofCell` asks
first which character a cell holds.
-/

namespace Aquarium

/-- An instruction that reads or writes the grid. -/
inductive GridCommand where
  | get
  | put
deriving DecidableEq

namespace GridCommand

/-- The grid instruction a character stands for. -/
def ofChar? : Char → Option GridCommand
  | 'g' => some .get
  | 'p' => some .put
  | _ => none

/-- The name of a grid instruction. -/
def name : GridCommand → String
  | .get => "Get"
  | .put => "Put"

/-- What a grid instruction does to the stack and the grid.  The row is on top, then the column,
then, for a write, the value.  A write to no place still uses up its three operands. -/
def run : GridCommand → EStateM Fault (Stack × Grid) Unit
  | .get => fun (s, g) =>
      match s.values with
      | y :: x :: rest => .ok () (s.withValues (g.read x y :: rest), g)
      | _ => .error (.underflow 2 s.size) (s, g)
  | .put => fun (s, g) =>
      match s.values with
      | y :: x :: v :: rest =>
          match g.write x y v with
          | .ok g' => .ok () (s.withValues rest, g')
          | .error f => .error f (s.withValues rest, g)
      | _ => .error (.underflow 3 s.size) (s, g)

end GridCommand

/-- What one cell tells the machine to do. -/
inductive Instruction where
  | literal (value : Float)
  | mirror (mirror : Mirror)
  | skip
  | skipIfZero
  | arithmetic (op : Operator)
  | stack (command : StackCommand)
  | grid (command : GridCommand)
  | jump
  | string (quote : Char)
  | printChar
  | printNumber
  | input
  | halt
  | idle
deriving DecidableEq

namespace Instruction

/-- The value of a hexadecimal digit written in lower case. -/
def digit? (c : Char) : Option Nat :=
  if '0' ≤ c ∧ c ≤ '9' then some (c.toNat - '0'.toNat)
  else if 'a' ≤ c ∧ c ≤ 'f' then some (c.toNat - 'a'.toNat + 10)
  else none

/-- The instructions that belong to no family. -/
def single? : Char → Option Instruction
  | '!' => some .skip
  | '?' => some .skipIfZero
  | '.' => some .jump
  | '\'' => some (.string '\'')
  | '"' => some (.string '"')
  | 'o' => some .printChar
  | 'n' => some .printNumber
  | 'i' => some .input
  | ';' => some .halt
  | ' ' => some .idle
  | _ => none

/-- The instruction a character stands for, if any. -/
def ofChar? (c : Char) : Option Instruction :=
  ((digit? c).map fun d => .literal (Number.ofNat d))
    <|> (Mirror.ofChar? c).map .mirror
    <|> (Operator.ofChar? c).map .arithmetic
    <|> (StackCommand.ofChar? c).map .stack
    <|> (GridCommand.ofChar? c).map .grid
    <|> single? c

/-- The instruction a character stands for. -/
def ofChar (c : Char) : Except Fault Instruction :=
  match ofChar? c with
  | some i => .ok i
  | none => .error (.unknownInstruction c)

/-- The instruction in a cell, which has to hold a character. -/
def ofCell (cell : Float) : Except Fault Instruction :=
  match Number.char? cell with
  | some c => ofChar c
  | none => .error (.notACharacter cell)

/-- The name of an instruction with its operands. -/
def name : Instruction → String
  | .literal value => "Literal(" ++ Number.literal value ++ ")"
  | .mirror m => "Mirror(" ++ m.name ++ ")"
  | .skip => "Trampoline"
  | .skipIfZero => "ConditionalTrampoline"
  | .arithmetic op => "Arithmetic(" ++ op.name ++ ")"
  | .stack c => "Stack(" ++ c.name ++ ")"
  | .grid c => "Reflect(" ++ c.name ++ ")"
  | .jump => "Teleport"
  | .string quote => "StringMode(" ++ Text.quotedChar quote ++ ")"
  | .printChar => "OutputChar"
  | .printNumber => "OutputNumber"
  | .input => "Input"
  | .halt => "Terminate"
  | .idle => "Nop"

end Instruction

end Aquarium
