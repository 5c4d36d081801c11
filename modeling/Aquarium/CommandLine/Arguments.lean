import Aquarium.CommandLine.Options
import Aquarium.Number.FromText

/-!
# Arguments

The grammar of the command line.  An option has a long name and may have a short one.  Its value
follows as the next argument or is attached, after an equals sign or, for a short name, directly.
A separate value cannot look like an option; a negative number after the option for numbers is
the one exception.  After two dashes everything is the name of a file.
-/

namespace Aquarium

namespace Options

/-- An option that takes a value. -/
inductive Key where
  | code
  | project
  | value
  | string
  | input
  | maxSteps
  | seed
deriving DecidableEq

/-- An argument that names an option: one with a value, or the one without. -/
inductive Switch where
  | valued (key : Key)
  | trace

/-- The option of a long name. -/
def ofLong? : String → Option Switch
  | "eval" => some (.valued .code)
  | "project" => some (.valued .project)
  | "value" => some (.valued .value)
  | "string" => some (.valued .string)
  | "input" => some (.valued .input)
  | "max-steps" => some (.valued .maxSteps)
  | "seed" => some (.valued .seed)
  | "trace" => some .trace
  | _ => none

/-- The option of a short name. -/
def ofShort? : Char → Option Key
  | 'e' => some .code
  | 'v' => some .value
  | 's' => some .string
  | 'i' => some .input
  | _ => none

/-! ## Taking values -/

/-- Fills an option that can be given once. -/
def once {α : Type} (new : α) : Option α → Option (Option α)
  | none => some (some new)
  | some _ => none

/-- A path, which cannot be empty. -/
def path? (s : String) : Option String := if s.isEmpty then none else some s

/-- Takes over the value of an option.  Only the option for numbers can be repeated. -/
def assign (o : Options) (key : Key) (s : String) : Option Options := do
  match key with
  | .code => pure { o with code := ← once s o.code }
  | .project => pure { o with project := ← once (← path? s) o.project }
  | .value => pure { o with values := o.values ++ [← Number.float? s] }
  | .string => pure { o with string := ← once s o.string }
  | .input => pure { o with input := ← once s o.input }
  | .maxSteps => pure { o with maxSteps := ← once (← Number.word? s) o.maxSteps }
  | .seed => pure { o with seed := ← once (← Number.word? s) o.seed }

/-- Takes over the name of the file, which can be given once. -/
def setFile (o : Options) (s : String) : Option Options := do
  pure { o with file := ← once (← path? s) o.file }

/-- Switches tracing on, which can be done once. -/
def setTrace (o : Options) : Option Options :=
  if o.trace then none else some { o with trace := true }

/-! ## The shape of arguments -/

/-- Whether characters after a dash read as a number: digits, at most one point after the first
of them, and an exponent without a sign. -/
def looksNumeric (cs : List Char) : Bool :=
  let (whole, rest) := cs.span Number.isDigit
  let rest := match rest with
    | '.' :: more => more.dropWhile Number.isDigit
    | _ => rest
  !whole.isEmpty &&
    match rest with
    | [] => true
    | c :: ds => (c == 'e' || c == 'E') && !ds.isEmpty && ds.all Number.isDigit

/-- Whether an argument can be the separate value of an option. -/
def isSeparateValue (key : Key) (s : String) : Bool :=
  match s.toList with
  | '-' :: cs => cs.isEmpty || (key == .value && looksNumeric cs)
  | _ => true

/-- Cuts a long option at its first equals sign. -/
def splitLong (cs : List Char) : String × Option String :=
  match cs.span (· != '=') with
  | (name, _ :: value) => (String.ofList name, some (String.ofList value))
  | (name, []) => (String.ofList name, none)

/-- The value attached to a short option. -/
def attached? : List Char → Option String
  | [] => none
  | '=' :: value => some (String.ofList value)
  | value => some (String.ofList value)

/-- What a single argument is. -/
inductive Argument where
  /-- Two dashes: only files follow. -/
  | separator
  | switch (switch : Switch) (attached : Option String)
  | file (name : String)
  | unknown

/-- Takes an argument by its shape. -/
def argument (s : String) : Argument :=
  match s.toList with
  | ['-', '-'] => .separator
  | '-' :: '-' :: cs =>
      let (name, attached) := splitLong cs
      match ofLong? name with
      | some switch => .switch switch attached
      | none => .unknown
  | '-' :: c :: cs =>
      match ofShort? c with
      | some key => .switch (.valued key) (attached? cs)
      | none => .unknown
  | _ => .file s

/-! ## The whole command line -/

/-- Takes over all arguments as files. -/
def takeFiles (o : Options) (args : List String) : Option Options := args.foldlM setFile o

/-- Takes over the arguments one after the other. -/
def takeAll (o : Options) : List String → Option Options
  | [] => some o
  | arg :: args =>
      match argument arg with
      | .separator => o.takeFiles args
      | .file name => do (← o.setFile name).takeAll args
      | .switch .trace none => do (← o.setTrace).takeAll args
      | .switch .trace (some _) => none
      | .switch (.valued key) (some value) => do (← o.assign key value).takeAll args
      | .switch (.valued key) none =>
          match args with
          | value :: args =>
              if isSeparateValue key value then do (← o.assign key value).takeAll args else none
          | [] => none
      | .unknown => none

/-- The options of a command line, if it is one. -/
def parse? (args : List String) : Option Options := do
  let o ← takeAll {} args
  if o.isConsistent then some o else none

end Options

end Aquarium
