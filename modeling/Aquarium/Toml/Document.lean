import Aquarium.Toml.Lexeme

/-!
# TOML documents

A document is a sequence of sections.  Each starts with a header, except the first, and holds
keys with their values.  `sections` reads them, and `assemble` puts them together to one table.
-/

namespace Aquarium.Toml

open Scan Lexeme

/-! ## Values -/

/-- An array, given a scanner for its items. -/
def arrayOf (item : Scan Toml) : Scan Toml := do
  char '['
  let items ← sepBy (do gap; let v ← item; gap; pure v) (char ',')
  if !items.isEmpty then
    let _ ← opt (char ',')
  gap
  char ']'
  pure (.array items)

/-- A key with its value, given a scanner for values. -/
def pairOf (item : Scan Toml) : Scan ((List String × String) × Toml) := do
  let k ← key
  char '='
  blanks
  let v ← item
  pure (k, v)

/-- A table in braces, given a scanner for its values.  It stands on one line. -/
def tableOf (item : Scan Toml) : Scan Toml := do
  char '\x7b'
  let pairs ← sepBy (do let p ← pairOf item; blanks; pure p) (char ',')
  blanks
  char '\x7d'
  match insertAll (.table .inline []) pairs with
  | some t => pure t
  | none => failure

/-- A value without parts. -/
def scalar : Scan Toml :=
  (do let cs ← Lexeme.string; pure (.string (String.ofList cs))) <|>
  (do text "true"; pure (.boolean true)) <|>
  (do text "false"; pure (.boolean false)) <|>
  dateTime <|> decimalFloat <|> namedFloat <|> Lexeme.integer

/-- A value in which arrays and tables in braces are nested at most `depth` times. -/
def anyValue : Nat → Scan Toml
  | 0 => scalar
  | depth + 1 => scalar <|> arrayOf (anyValue depth) <|> tableOf (anyValue depth)

/-! ## Statements -/

/-- What can stand on a line. -/
inductive Statement where
  | blank
  | header (path : List String) (last : String)
  | arrayHeader (path : List String) (last : String)
  | pair (path : List String) (last : String) (value : Toml)

/-- A line of a document. -/
def statement : Scan Statement :=
  (do comment; lineEnd; pure .blank) <|>
  (do newline; pure .blank) <|>
  (do
    text "[["
    let (path, last) ← key
    text "]]"
    trailing
    pure (.arrayHeader path last)) <|>
  (do
    char '['
    let (path, last) ← key
    char ']'
    trailing
    pure (.header path last)) <|>
  (do
    let ((path, last), v) ← pairOf (anyValue (depthLimit - 1))
    trailing
    pure (.pair path last v))

/-- All lines of a document.  A byte order mark in front of it is skipped. -/
def statements : Scan (List Statement) := do
  let _ ← opt (char '\uFEFF')
  blanks
  let all ← many (do let s ← statement; blanks; pure s)
  atEnd
  pure all

/-! ## Sections -/

/-- The header of a section: none, one of its own, or one it shares with others. -/
inductive Header where
  | none
  | single (path : List String) (last : String)
  | repeated (path : List String) (last : String)

/-- A header and the keys under it. -/
structure Section where
  header : Header
  pairs : List ((List String × String) × Toml)

/-- Groups lines into sections, the last section first. -/
def addStatement : List Section → Statement → List Section
  | done, .blank => done
  | done, .header path last => ⟨.single path last, []⟩ :: done
  | done, .arrayHeader path last => ⟨.repeated path last, []⟩ :: done
  | s :: done, .pair path last v => { s with pairs := s.pairs ++ [((path, last), v)] } :: done
  | [], .pair path last v => [⟨.none, [((path, last), v)]⟩]

/-- The sections of a document, the first one without a header. -/
def sections (lines : List Statement) : List Section :=
  (lines.foldl addStatement [⟨.none, []⟩]).reverse

/-- Puts a section with its own header into the table it belongs to.  Only a table that was
implied before may be headed now. -/
def addSingle (last : String) (pairs : List ((List String × String) × Toml)) :
    Toml → Option Toml
  | .table origin entries => do
      let known ← match entries.lookup last with
        | none => some []
        | some (.table .implied es) => some es
        | some _ => none
      let t ← insertAll (.table .header known) pairs
      pure (.table origin (Entries.put last t entries))
  | _ => none

/-- Puts a section with a repeated header into the table it belongs to. -/
def addRepeated (last : String) (pairs : List ((List String × String) × Toml)) :
    Toml → Option Toml
  | .table origin entries => do
      let earlier ← match entries.lookup last with
        | none => some []
        | some (.tables items) => some items
        | some _ => none
      let t ← insertAll (.table .header []) pairs
      pure (.table origin (Entries.put last (.tables (earlier ++ [t])) entries))
  | _ => none

/-- Adds a section to the table of a document. -/
def addSection (root : Toml) (s : Section) : Option Toml :=
  match s.header with
  | .none => insertAll root s.pairs
  | .single path last => alter false (addSingle last s.pairs) path root
  | .repeated path last => alter false (addRepeated last s.pairs) path root

/-- The table that sections make up. -/
def assemble (ss : List Section) : Option Toml := ss.foldlM addSection (.table .header [])

/-- Reads a document. -/
def parse? (s : String) : Option Toml :=
  match statements s.toList with
  | some (lines, _) => assemble (sections lines)
  | none => none

end Aquarium.Toml
