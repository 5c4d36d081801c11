import Aquarium.Arithmetic

/-!
# The stack of stacks

A program works on one frame, a stack of values with a register.  It can set the frame aside and
work on the topmost values alone, and later put them back.  Frames set aside form the archive.

Stacks are lists with the top first.  An operation is a state transformer that may fault
(`StackM`), and a fault keeps the state: what was taken off before the fault stays off.
-/

namespace Aquarium

/-- A stack, top first, and its register. -/
structure Frame where
  values : List Float := []
  register : Option Float := none
deriving DecidableEq

/-- The frame in use and those set aside, the latest first. -/
structure Stack where
  active : Frame := {}
  archive : List Frame := []
deriving DecidableEq

/-- An operation on the stack that may fault. -/
abbrev StackM := EStateM Fault Stack

namespace Stack

/-- A single frame with the given values, bottom first. -/
def ofValues (values : List Float) : Stack := { active := { values := values.reverse } }

/-- The values of the frame in use, top first. -/
def values (s : Stack) : List Float := s.active.values

/-- The values of the frame in use, bottom first. -/
def bottomUp (s : Stack) : List Float := s.active.values.reverse

/-- The number of values of the frame in use. -/
def size (s : Stack) : Nat := s.active.values.length

/-- The number of frames set aside. -/
def depth (s : Stack) : Nat := s.archive.length

/-- The stack with other values in the frame in use. -/
def withValues (s : Stack) (values : List Float) : Stack :=
  { s with active := { s.active with values := values } }

/-! ## Taking and putting values -/

/-- The fault of finding fewer values than needed. -/
def shortOf {α : Type} (needed : Nat) : StackM α := fun s =>
  .error (.underflow needed s.size) s

/-- Puts a value on top. -/
def push (v : Float) : StackM Unit := fun s => .ok () (s.withValues (v :: s.values))

/-- Takes the top value. -/
def pop : StackM Float := fun s =>
  match s.values with
  | v :: rest => .ok v (s.withValues rest)
  | [] => shortOf 1 s

/-- Takes the two topmost values, or none if there are not two: the top and the one below it. -/
def popTwo : StackM (Float × Float) := fun s =>
  match s.values with
  | x :: y :: rest => .ok (x, y) (s.withValues rest)
  | _ => shortOf 2 s

/-! ## Rearranging values -/

/-- Doubles the top value. -/
def duplicate : StackM Unit := do
  let v ← pop
  push v
  push v

/-- Drops the top value. -/
def drop : StackM Unit := do
  let _ ← pop

/-- Exchanges the two topmost values. -/
def swap : StackM Unit := fun s =>
  match s.values with
  | x :: y :: rest => .ok () (s.withValues (y :: x :: rest))
  | _ => shortOf 2 s

/-- Moves the top value below the next two. -/
def rotate : StackM Unit := fun s =>
  match s.values with
  | x :: y :: z :: rest => .ok () (s.withValues (y :: z :: x :: rest))
  | _ => shortOf 3 s

/-- Moves the top value to the bottom. -/
def shiftRight : StackM Unit := fun s =>
  match s.values with
  | x :: rest => .ok () (s.withValues (rest ++ [x]))
  | [] => shortOf 1 s

/-- Moves the bottom value to the top. -/
def shiftLeft : StackM Unit := fun s =>
  match s.values.getLast? with
  | some x => .ok () (s.withValues (x :: s.values.dropLast))
  | none => shortOf 1 s

/-- Turns the stack upside down. -/
def reverse : StackM Unit := fun s => .ok () (s.withValues s.values.reverse)

/-- Puts the number of values on top. -/
def length : StackM Unit := fun s => push (Number.ofNat s.size) s

/-! ## Frames and registers -/

/-- Splits the topmost `n` values off into a new frame with an empty register. -/
def splitOff (n : Nat) : StackM Unit := fun s =>
  if s.size < n then shortOf n s
  else
    .ok ()
      { active := { values := s.values.take n }
        archive := { s.active with values := s.values.drop n } :: s.archive }

/-- Takes a count and splits that many values off into a new frame.  The count is gone even if it
is no count or too large. -/
def openFrame : StackM Unit := do
  let count ← pop
  match Number.index? count with
  | some n => splitOff n
  | none => throw (.badSubstackSize count)

/-- Puts the values of the frame in use on top of the frame set aside last, whose register comes
back with it.  The outermost frame is emptied instead. -/
def closeFrame : StackM Unit := fun s =>
  match s.archive with
  | parent :: rest =>
      .ok ()
        { active := { parent with values := s.values ++ parent.values }
          archive := rest }
  | [] => .ok () {}

/-- Takes the value out of a filled register, or moves the top value into an empty one. -/
def exchangeRegister : StackM Unit := fun s =>
  match s.active.register with
  | some v => .ok () { s with active := { values := v :: s.values } }
  | none =>
      match s.values with
      | v :: rest => .ok () { s with active := { values := rest, register := some v } }
      | [] => shortOf 1 s

/-- Replaces the two topmost values by the result of an operator.  The operands are gone even if
the operator faults. -/
def compute (op : Operator) : StackM Unit := do
  let (x, y) ← popTwo
  match op.eval y x with
  | .ok v => push v
  | .error f => throw f

end Stack

/-! ## Stack instructions -/

/-- An instruction that works on the stack alone. -/
inductive StackCommand where
  | duplicate
  | drop
  | swap
  | rotate
  | shiftRight
  | shiftLeft
  | reverse
  | length
  | openFrame
  | closeFrame
  | register
deriving DecidableEq

namespace StackCommand

/-- The stack instruction a character stands for. -/
def ofChar? : Char → Option StackCommand
  | ':' => some .duplicate
  | '~' => some .drop
  | '$' => some .swap
  | '@' => some .rotate
  | '\x7d' => some .shiftRight
  | '\x7b' => some .shiftLeft
  | 'r' => some .reverse
  | 'l' => some .length
  | '[' => some .openFrame
  | ']' => some .closeFrame
  | '&' => some .register
  | _ => none

/-- The name of a stack instruction. -/
def name : StackCommand → String
  | .duplicate => "Duplicate"
  | .drop => "Drop"
  | .swap => "Swap"
  | .rotate => "Rotate"
  | .shiftRight => "ShiftRight"
  | .shiftLeft => "ShiftLeft"
  | .reverse => "Reverse"
  | .length => "Length"
  | .openFrame => "NewStack"
  | .closeFrame => "EndStack"
  | .register => "Register"

/-- What a stack instruction does. -/
def run : StackCommand → StackM Unit
  | .duplicate => Stack.duplicate
  | .drop => Stack.drop
  | .swap => Stack.swap
  | .rotate => Stack.rotate
  | .shiftRight => Stack.shiftRight
  | .shiftLeft => Stack.shiftLeft
  | .reverse => Stack.reverse
  | .length => Stack.length
  | .openFrame => Stack.openFrame
  | .closeFrame => Stack.closeFrame
  | .register => Stack.exchangeRegister

end StackCommand

end Aquarium
