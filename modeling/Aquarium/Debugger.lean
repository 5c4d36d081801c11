import Aquarium.Position

/-!
# The debugger

A debugger is asked before every step whether to pause in front of the next cell (`check`) and
told after every step that it was made (`markExecuted`).  In between the user gives commands:
breakpoints, continue, single step.

A breakpoint stops the program once each time it is reached.  That is why the debugger remembers
where it last paused and whether a step was made since.
-/

namespace Aquarium

/-- What the user wants to happen next. -/
inductive DebugMode where
  /-- Run up to the next breakpoint. -/
  | running
  /-- Wait for a command. -/
  | paused
  /-- Make one step and pause again. -/
  | stepping
deriving DecidableEq

/-- Why the program is paused. -/
inductive DebugEvent where
  | breakpoint (position : Position)
  | step
  | paused
deriving DecidableEq

/-- An event as text. -/
def DebugEvent.text : DebugEvent → String
  | .breakpoint p => "Breakpoint(" ++ p.text ++ ")"
  | .step => "Step"
  | .paused => "Paused"

/-- Breakpoints, in order and without repetition, the mode, and the memory of the last pause. -/
structure Debugger where
  breakpoints : List Position := []
  mode : DebugMode := .running
  /-- Whether a step was made since the last pause. -/
  executed : Bool := true
  /-- Where the last pause was, as long as it matters. -/
  lastPause : Option Position := none
deriving DecidableEq

namespace Debugger

/-- A debugger that runs until a breakpoint. -/
def running : Debugger := {}

/-- A debugger that pauses before the first step. -/
def paused : Debugger := { mode := .paused, executed := false }

/-! ## Commands -/

/-- Sets a breakpoint. -/
def addBreakpoint (d : Debugger) (p : Position) : Debugger :=
  { d with breakpoints := p.insert d.breakpoints }

/-- Removes a breakpoint. -/
def removeBreakpoint (d : Debugger) (p : Position) : Debugger :=
  { d with breakpoints := d.breakpoints.filter (· ≠ p) }

/-- Removes all breakpoints. -/
def clearBreakpoints (d : Debugger) : Debugger := { d with breakpoints := [] }

/-- Whether there is a breakpoint at a position. -/
def hasBreakpoint (d : Debugger) (p : Position) : Bool := d.breakpoints.contains p

/-- Runs on to the next breakpoint. -/
def continueRunning (d : Debugger) : Debugger := { d with mode := .running, executed := false }

/-- Makes one step and pauses again. -/
def stepInto (d : Debugger) : Debugger := { d with mode := .stepping, executed := false }

/-! ## Around a step -/

/-- The debugger after pausing in front of a position. -/
def pauseAt (d : Debugger) (p : Position) : Debugger :=
  { d with mode := .paused, executed := false, lastPause := some p }

/-- Whether the program stands where it last paused and has not moved since. -/
def isResuming (d : Debugger) (p : Position) : Bool := d.lastPause == some p && !d.executed

/-- Decides whether to pause in front of the cell at a position. -/
def check (d : Debugger) (p : Position) : Option DebugEvent × Debugger :=
  match d.mode with
  | .paused =>
      if d.executed then (none, d) else (some .paused, { d with lastPause := some p })
  | .running =>
      if d.isResuming p then (none, d)
      else if d.hasBreakpoint p then (some (.breakpoint p), d.pauseAt p)
      else (none, { d with lastPause := none })
  | .stepping =>
      if d.executed then (some .step, d.pauseAt p) else (none, d)

/-- Takes note of a step. -/
def markExecuted (d : Debugger) : Debugger := { d with executed := true }

end Debugger

end Aquarium
