/-!
# Journal records

What the library tells about its work while it runs: a level, the part of the library that
speaks, and a message.  Records are values; nothing is written anywhere.
-/

namespace Aquarium

/-- How important a record is. -/
inductive Level where
  | info
  | debug
  | trace
deriving DecidableEq

/-- Who speaks. -/
inductive Speaker where
  | machine
  | stack
  | session
  | command
deriving DecidableEq

/-- A line of the journal. -/
structure Record where
  level : Level
  speaker : Speaker
  message : String
deriving DecidableEq

namespace Record

/-- The name of a level. -/
def levelName : Level → String
  | .info => "INFO"
  | .debug => "DEBUG"
  | .trace => "TRACE"

/-- The name under which a part of the library speaks. -/
def speakerName : Speaker → String
  | .machine => "fish_vm::machine"
  | .stack => "fish_vm::stack"
  | .session => "fish::session"
  | .command => "fish"

/-- A record as a line of text. -/
def line (r : Record) : String :=
  levelName r.level ++ " " ++ speakerName r.speaker ++ ": " ++ r.message

end Record

end Aquarium
