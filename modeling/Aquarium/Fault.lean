import Aquarium.Number.Numeral
import Aquarium.Text.Quoted

/-!
# Faults

Everything that can go wrong while a program runs or while its host talks to it, with the message
for people (`Fault.message`) and the form in which a dump of a machine shows it (`Fault.form`).
-/

namespace Aquarium

/-- A cause of failure. -/
inductive Fault where
  | underflow (needed available : Nat)
  | divisionByZero
  | unknownInstruction (c : Char)
  | notACharacter (cell : Float)
  | outside (x y : Float)
  | unknownHeading (c : Char)
  | emptyQueue
  | alreadyTerminated
  | unprintable (value : Float)
  | badSubstackSize (value : Float)
  | badInput (text : String)
deriving DecidableEq

namespace Fault

open Number (positional literal digitText)

/-- The message of a fault. -/
def message : Fault → String
  | .underflow needed available =>
      "stack underflow: needed " ++ digitText needed ++ " value(s), found " ++ digitText available
  | .divisionByZero => "division by zero"
  | .unknownInstruction c => "invalid instruction " ++ Text.quotedChar c
  | .notACharacter cell =>
      "invalid instruction: cell value " ++ positional cell ++ " is not a character"
  | .outside x y =>
      "position (" ++ positional x ++ ", " ++ positional y ++ ") is outside the program"
  | .unknownHeading c => "invalid direction " ++ Text.quotedChar c
  | .emptyQueue => "queue is empty"
  | .alreadyTerminated => "program has already terminated"
  | .unprintable value => "cannot output " ++ positional value ++ " as a character"
  | .badSubstackSize value => "invalid substack size " ++ positional value
  | .badInput text => "input must be a single character, got " ++ Text.quoted text

/-- The name of the kind of a fault. -/
def kind : Fault → String
  | .underflow _ _ => "StackUnderflow"
  | .divisionByZero => "DivisionByZero"
  | .unknownInstruction _ => "InvalidInstruction"
  | .notACharacter _ => "InvalidCell"
  | .outside _ _ => "OutOfBounds"
  | .unknownHeading _ => "InvalidDirection"
  | .emptyQueue => "EmptyQueue"
  | .alreadyTerminated => "ProgramAlreadyTerminated"
  | .unprintable _ => "InvalidCharacter"
  | .badSubstackSize _ => "InvalidSubstackSize"
  | .badInput _ => "InvalidInput"

/-- A fault as a constructor applied to its operands. -/
def form (f : Fault) : String :=
  f.kind ++ match f with
  | .underflow needed available =>
      " \x7b needed: " ++ digitText needed ++ ", available: " ++ digitText available ++ " \x7d"
  | .outside x y => " \x7b x: " ++ literal x ++ ", y: " ++ literal y ++ " \x7d"
  | .unknownInstruction c | .unknownHeading c => "(" ++ Text.quotedChar c ++ ")"
  | .notACharacter v | .unprintable v | .badSubstackSize v => "(" ++ literal v ++ ")"
  | .badInput text => "(" ++ Text.quoted text ++ ")"
  | .divisionByZero | .emptyQueue | .alreadyTerminated => ""

end Fault

end Aquarium
