import Aquarium.CommandLine.Options
import Aquarium.Project
import Aquarium.Session

/-!
# Running from the command line

The options say where the program comes from: it is given as code, a project, a file or, if none
of these is named, the standard input.  What the options leave open comes from the manifest of
the project.  The reply holds what is printed and whether the program ended on purpose.

Some of the work is not the command's own: to make options of arguments, to read the text of a
manifest, and to find the compass for a seed.  Whatever does it is a parameter (`Tools`).
-/

namespace Aquarium

/-- A program and how to run it. -/
structure Job where
  source : String
  initialStack : List Float := []
  input : String := ""
  maxSteps : Option Nat := none
  seed : Option Nat := none

/-- Why there is no job. -/
inductive JobFault where
  | fileUnread (path : String) (cause : ReadFault)
  | inputUnread (cause : ReadFault)
  | project (fault : LoadFault)
deriving DecidableEq

/-- The message of a fault in finding a job. -/
def JobFault.message : JobFault → String
  | .fileUnread path cause => "error reading " ++ path ++ ": " ++ cause.message
  | .inputUnread cause => "error reading stdin: " ++ cause.message
  | .project fault => fault.message

/-- The job of a project. -/
def Project.job (p : Project) : Job :=
  { source := p.source
    initialStack := p.manifest.initialStack
    input := p.manifest.input
    maxSteps := p.manifest.maxSteps
    seed := p.manifest.seed }

/-- What a command answers. -/
inductive Reply where
  /-- The command line was not understood. -/
  | refused
  /-- The command was carried out: whether with success, and what it printed. -/
  | answered (success : Bool) (output : String) (errors : List String)

/-- What does the work that is not the command's own. -/
structure Tools (κ : Type) where
  /-- The options in the arguments of a command line, if it is understood. -/
  options? : List String → Option Options
  /-- The manifest in a text. -/
  readManifest : Manifest.Reader
  /-- The compass for a seed. -/
  seeded : Nat → κ

namespace CommandLine

variable {κ : Type}

/-- Adds what the options say to the job at hand.  Values go on top of the stack, first the
numbers and then the characters of the text. -/
def amend (o : Options) (job : Job) : Job :=
  { job with
    initialStack := job.initialStack ++ o.values ++
      (o.string.getD "").toList.map Number.ofChar
    input := o.input.getD job.input
    maxSteps := o.maxSteps <|> job.maxSteps
    seed := o.seed <|> job.seed }

/-- Finds the program that the options name, before they amend it. -/
def findJob {m : Type → Type} [Monad m] (read : Manifest.Reader) (h : Host m) (o : Options) :
    ExceptT JobFault m Job := do
  match o.code, o.project, o.file with
  | some code, _, _ => pure { source := code }
  | none, some directory, _ =>
      match ← (Project.load read h directory).run with
      | .ok p => pure p.job
      | .error fault => throw (.project fault)
  | none, none, some path =>
      if path = "-" then fromInput
      else
        match ← h.readText path with
        | .ok text => pure { source := Text.stripLineEnd text }
        | .error cause => throw (.fileUnread path cause)
  | none, none, none => fromInput
where
  /-- The program on the standard input. -/
  fromInput : ExceptT JobFault m Job := do
    match ← h.readInputText with
    | .ok text => pure { source := Text.stripLineEnd text }
    | .error cause => throw (.inputUnread cause)

/-- The settings of a job: a limit of zero steps is no limit. -/
def settings (job : Job) : Settings :=
  { maxSteps := match job.maxSteps with
      | some 0 => none
      | some n => some n
      | none => ({} : Settings).maxSteps
    seed := job.seed }

/-- A number that may be missing. -/
def optionText : Option Nat → String
  | some n => "Some(" ++ Number.digitText n ++ ")"
  | none => "None"

/-- The record of the settings. -/
def settingsRecord (s : Settings) : Record :=
  ⟨.debug, .command, "running with SessionConfig \x7b max_steps: " ++ optionText s.maxSteps ++
    ", seed: " ++ optionText s.seed ++ " \x7d"⟩

/-- The compass of a job: the one for its seed or, without a seed, the one that chance has given. -/
def compass (seeded : Nat → κ) (chance : κ) (job : Job) : κ :=
  match job.seed with
  | some seed => seeded seed
  | none => chance

/-- The session of a job. -/
def session (job : Job) (compass : κ) : Session κ :=
  Session.start job.source job.initialStack (settings job) compass job.input

/-- What is said about the way a run ended. -/
def verdict (outcome : Outcome) (steps : Nat) : List String :=
  match outcome with
  | .failed f => ["error: " ++ f.message ++ " (after " ++ Number.digitText steps ++ " steps)"]
  | .stepLimit => ["step limit reached after " ++ Number.digitText steps ++ " steps"]
  | .refused f => ["error: runtime error: " ++ f.message]
  | .completed | .paused _ => []

/-- Whether a run ended with success. -/
def isSuccess : Outcome → Bool
  | .completed | .paused _ => true
  | .failed _ | .stepLimit | .refused _ => false

/-- What is printed after a run: the output of the program, unless the run broke down. -/
def printed (outcome : Outcome) (output : List Emission) : String :=
  match outcome with
  | .refused _ => ""
  | .completed | .failed _ | .stepLimit | .paused _ => Emission.render output

variable [Compass κ]

/-- Everything the run of a session tells, in order. -/
def trace (s : Session κ) : List String :=
  ((settingsRecord s.settings :: s.machine.loadRecord :: s.journal none).map Record.line)

/-- Runs a job.  There is no answer if the run does not end. -/
def runJob (job : Job) (tracing : Bool) (compass : κ) : Option Reply :=
  let s := session job compass
  (s.run none).map fun (outcome, s', _) =>
    .answered (isSuccess outcome) (printed outcome s'.output.toList)
      ((if tracing then trace s else []) ++ verdict outcome s'.machine.steps)

/-- Does what the options say. -/
def carryOut {m : Type → Type} [Monad m] (tools : Tools κ) (chance : κ) (h : Host m)
    (o : Options) : m (Option Reply) := do
  match ← (findJob tools.readManifest h o).run with
  | .ok base =>
      let job := amend o base
      return runJob job o.trace (compass tools.seeded chance job)
  | .error fault => return some (.answered false "" ["error: " ++ fault.message])

/-- Carries out a command. -/
def execute {m : Type → Type} [Monad m] (tools : Tools κ) (chance : κ) (h : Host m)
    (args : List String) : m (Option Reply) :=
  match tools.options? args with
  | none => return some .refused
  | some o => carryOut tools chance h o

end CommandLine

end Aquarium
