import Aquarium.Debugger
import Aquarium.Machine.Trace

/-!
# Sessions

A session runs a machine until it ends, until its step budget is used up, or until a debugger
pauses it.  The emissions of the machine are collected after every step of a run.

One turn of a run is `Session.turn`.  A run repeats turns until one of them stops.  A session
without a budget may go on forever, so a run is given a number of turns and answers nothing when
they do not suffice (`runWithin`); with a budget the number of turns is known beforehand (`run`).
What a run tells about itself is a function of the same turns (`journal`).
-/

namespace Aquarium

/-- The step budget and the seed of a session. -/
structure Settings where
  maxSteps : Option Nat := some 1000000
  seed : Option Nat := none
deriving DecidableEq

/-- A machine, its settings and the emissions collected so far. -/
structure Session (κ : Type) where
  machine : Machine κ
  settings : Settings
  output : Array Emission := #[]

/-- Why a run stopped. -/
inductive Outcome where
  /-- The program ended on purpose. -/
  | completed
  /-- A fault ended the program. -/
  | failed (fault : Fault)
  /-- The step budget is used up. -/
  | stepLimit
  /-- The debugger paused. -/
  | paused (event : DebugEvent)
  /-- The machine refused to make a step, although the run asked for one. -/
  | refused (fault : Fault)
deriving DecidableEq

/-- One turn of a run: it stops with an outcome, or it makes a step and the run goes on. -/
inductive Turn (κ : Type) where
  | stop (outcome : Outcome) (session : Session κ) (debugger : Option Debugger)
  | go (session : Session κ) (debugger : Option Debugger)

namespace Session

variable {κ : Type}

/-- A session on a freshly loaded program, with text queued as its input. -/
def start (source : String) (values : List Float) (settings : Settings) (compass : κ)
    (input : String) : Session κ :=
  { machine := (Machine.load source values compass).feed input, settings := settings }

/-- How a machine ended, by the fault on record. -/
def ending (m : Machine κ) : Outcome :=
  match m.fault? with
  | some f => .failed f
  | none => .completed

/-- Whether the step budget is used up. -/
def isSpent (s : Session κ) : Bool :=
  match s.settings.maxSteps with
  | some limit => limit ≤ s.machine.steps
  | none => false

/-- Asks the debugger, if there is one and there is a next cell, whether to pause. -/
def consult (s : Session κ) (d : Option Debugger) : Option DebugEvent × Option Debugger :=
  match d, s.machine.nextPosition with
  | some d, some p =>
      let (event, d') := d.check p
      (event, some d')
  | d, _ => (none, d)

/-- Moves the pending emissions of the machine to the output of the session, one by one until the
machine has no more. -/
def collect (s : Session κ) : Session κ :=
  let (es, m) := s.machine.takeUpTo (s.machine.output.size + 1)
  { s with machine := m, output := s.output ++ es }

/-- One turn of a run. -/
def turn [Compass κ] (s : Session κ) (d : Option Debugger) : Turn κ :=
  if s.machine.hasTerminated then .stop (ending s.machine) s d
  else if s.isSpent then .stop .stepLimit s d
  else
    match s.consult d with
    | (some event, d') => .stop (.paused event) s d'
    | (none, d') =>
        match s.machine.step with
        | .ok m => .go (collect { s with machine := m }) (d'.map Debugger.markExecuted)
        | .error f => .stop (.refused f) s d'

/-- A run of at most the given number of turns. -/
def runWithin [Compass κ] : Nat → Session κ → Option Debugger →
    Option (Outcome × Session κ × Option Debugger)
  | 0, _, _ => none
  | turns + 1, s, d =>
      match s.turn d with
      | .stop outcome s' d' => some (outcome, s', d')
      | .go s' d' => runWithin turns s' d'

/-- Enough turns to use up the budget, one of them for finding that out.  A session without a
budget is given more turns than a step counter of 64 bits can count. -/
def turnLimit (s : Session κ) : Nat :=
  match s.settings.maxSteps with
  | some limit => limit - s.machine.steps + 1
  | none => 1 <<< 64

/-- Runs a session, without or with a debugger. -/
def run [Compass κ] (s : Session κ) (d : Option Debugger) :
    Option (Outcome × Session κ × Option Debugger) :=
  s.runWithin s.turnLimit d

/-! ## The journal of a run -/

/-- The records of one turn. -/
def turnRecords [Compass κ] (s : Session κ) (d : Option Debugger) : List Record :=
  match s.turn d with
  | .stop .stepLimit _ _ =>
      [⟨.info, .session, "step limit of " ++
        Number.digitText (s.settings.maxSteps.getD 0) ++ " reached"⟩]
  | .stop (.paused event) _ _ =>
      match s.machine.nextPosition with
      | some p => [⟨.debug, .session, "paused at " ++ Position.text p ++ ": " ++ event.text⟩]
      | none => []
  | .stop _ _ _ => []
  | .go _ _ => s.machine.stepRecords

/-- The records of a run of at most the given number of turns, after those already written. -/
def journalWithin [Compass κ] : Nat → Session κ → Option Debugger → Array Record → Array Record
  | 0, _, _, done => done
  | turns + 1, s, d, done =>
      match s.turn d with
      | .stop _ _ _ => done ++ s.turnRecords d
      | .go s' d' => journalWithin turns s' d' (done ++ s.turnRecords d)

/-- The records of a run. -/
def journal [Compass κ] (s : Session κ) (d : Option Debugger) : List Record :=
  (s.journalWithin s.turnLimit d #[]).toList

end Session

end Aquarium
