import Aquarium.Number.FromText
import Aquarium.Toml.Scan
import Aquarium.Toml.Value

/-!
# The lexemes of TOML

Blanks, comments, strings, keys, numbers and dates.
-/

namespace Aquarium.Toml.Lexeme

open Scan

/-! ## Blanks and comments -/

/-- A blank within a line. -/
def isBlankInLine (c : Char) : Bool := c == ' ' || c == '\t'

/-- A character that may stand in a comment or in a string: anything but controls, with the tab
as the exception. -/
def isTextChar (c : Char) : Bool := c == '\t' || (' ' ≤ c && c ≤ '~') || '\x80' ≤ c

/-- Blanks within a line. -/
def blanks : Scan Unit := do
  let _ ← run isBlankInLine

/-- A line ending. -/
def newline : Scan Unit := char '\n' <|> text "\r\n"

/-- A comment up to the end of its line. -/
def comment : Scan Unit := do
  char '#'
  let _ ← run isTextChar

/-- The end of a line or of the document. -/
def lineEnd : Scan Unit := newline <|> atEnd

/-- What may follow a statement on its line. -/
def trailing : Scan Unit := do
  blanks
  let _ ← opt comment
  lineEnd

/-- Blanks, comments and line endings between the items of an array. -/
def gap : Scan Unit := do
  let _ ← many (newline <|> (do let _ ← run1 isBlankInLine) <|> (do comment; newline))

/-! ## Strings -/

/-- Whether a character is a hexadecimal digit. -/
def isHexDigit (c : Char) : Bool :=
  Number.isDigit c || ('a' ≤ c && c ≤ 'f') || ('A' ≤ c && c ≤ 'F')

/-- The value of a hexadecimal digit. -/
def hexValue (c : Char) : Nat :=
  if Number.isDigit c then c.toNat - '0'.toNat
  else if 'a' ≤ c then c.toNat - 'a'.toNat + 10
  else c.toNat - 'A'.toNat + 10

/-- The number with given digits in a given base. -/
def ofBase (base : Nat) (ds : List Char) : Nat := ds.foldl (fun n c => base * n + hexValue c) 0

/-- A character given by a fixed number of hexadecimal digits. -/
def codePoint (digits : Nat) : Scan Char := do
  let ds ← exactly isHexDigit digits
  let n := ofBase 16 ds
  if h : n.isValidChar then pure (Char.ofNatAux n h) else failure

/-- An escape in a string. -/
def escape : Scan Char := do
  char '\\'
  let c ← one fun _ => true
  match c with
  | 'b' => pure '\x08'
  | 't' => pure '\t'
  | 'n' => pure '\n'
  | 'f' => pure '\x0c'
  | 'r' => pure '\r'
  | '"' => pure '"'
  | '\\' => pure '\\'
  | 'u' => codePoint 4
  | 'U' => codePoint 8
  | _ => failure

/-- A character of a string in double quotes that stands for itself. -/
def isPlain (c : Char) : Bool := isTextChar c && c != '"' && c != '\\'

/-- A string in double quotes. -/
def basicString : Scan (List Char) := do
  char '"'
  let cs ← many (one isPlain <|> escape)
  char '"'
  pure cs

/-- A string in single quotes. -/
def literalString : Scan (List Char) := do
  char '\''
  let cs ← run fun c => isTextChar c && c != '\''
  char '\''
  pure cs

/-- One or two quotes inside a string that ends with three. -/
def innerQuotes (quote : Char) : Scan (List Char) := do
  let qs ← run1 (· == quote)
  if qs.length ≤ 2 then pure qs else failure

/-- The end of a string that ends with three quotes.  Up to two more right before them belong to
the string. -/
def closingQuotes (quote : Char) : Scan (List Char) := fun cs =>
  let count := (cs.takeWhile (· == quote)).length
  if count < 3 then none
  else
    let inner := min (count - 3) 2
    some (List.replicate inner quote, cs.drop (inner + 3))

/-- A line ending inside a string, which always counts as a plain newline. -/
def innerNewline : Scan (List Char) := do
  newline
  pure ['\n']

/-- A backslash at the end of a line, which swallows all blanks up to the next character. -/
def lineJoin : Scan (List Char) := do
  char '\\'
  blanks
  newline
  let _ ← many (newline <|> (do let _ ← run1 isBlankInLine))
  pure []

/-- A string in three double quotes. -/
def basicBlock : Scan (List Char) := do
  text "\"\"\""
  let _ ← opt newline
  let parts ← many (run1 isPlain <|> lineJoin <|> (do let c ← escape; pure [c]) <|> innerNewline <|>
    innerQuotes '"')
  let last ← closingQuotes '"'
  pure (parts.flatten ++ last)

/-- A string in three single quotes. -/
def literalBlock : Scan (List Char) := do
  text "'''"
  let _ ← opt newline
  let parts ← many (run1 (fun c => isTextChar c && c != '\'') <|> innerNewline <|> innerQuotes '\'')
  let last ← closingQuotes '\''
  pure (parts.flatten ++ last)

/-- A string of any kind. -/
def string : Scan (List Char) := basicBlock <|> basicString <|> literalBlock <|> literalString

/-! ## Keys -/

/-- A character of a bare key. -/
def isKeyChar (c : Char) : Bool :=
  Number.isDigit c || ('a' ≤ c && c ≤ 'z') || ('A' ≤ c && c ≤ 'Z') || c == '_' || c == '-'

/-- One part of a key, with blanks around it. -/
def keyPart : Scan String := do
  blanks
  let cs ← run1 isKeyChar <|> basicString <|> literalString
  blanks
  pure (String.ofList cs)

/-- How deep values can be nested, and how many parts a key can have: one less than this. -/
def depthLimit : Nat := 80

/-- A key: the path of tables it leads through, and its last part. -/
def key : Scan (List String × String) := do
  let parts ← sepBy1 keyPart (char '.')
  match parts.getLast? with
  | some last => if parts.length < depthLimit then pure (parts.dropLast, last) else failure
  | none => failure

/-! ## Numbers -/

/-- Digits of a class with single underscores between them, without the underscores. -/
def digitRun (p : Char → Bool) : Scan (List Char) := do
  let first ← one p
  let rest ← many (one p <|> (do char '_'; one p))
  pure (first :: rest)

/-- The sign of a number. -/
def sign : Scan Bool := (do char '-'; pure true) <|> (do char '+'; pure false) <|> pure false

/-- The whole part of a decimal number, which has no zero in front. -/
def wholePart : Scan (List Char) :=
  (do char '0'; pure ['0']) <|> digitRun Number.isDigit

/-- The exponent of a number. -/
def exponentPart : Scan Int := do
  let _ ← one fun c => c == 'e' || c == 'E'
  let negative ← sign
  let ds ← digitRun Number.isDigit
  let n : Int := Number.ofDigits ds
  pure (if negative then -n else n)

/-- The fraction of a number. -/
def fractionPart : Scan (List Char) := do
  char '.'
  digitRun Number.isDigit

/-- A number with a fraction or an exponent.  One that is too large is refused, but a negative one
becomes infinite. -/
def decimalFloat : Scan Toml := do
  let negative ← sign
  let whole ← wholePart
  let (fraction, exponent) ← (do let e ← exponentPart; pure ([], e)) <|>
    (do
      let fraction ← fractionPart
      let e ← opt exponentPart
      pure (fraction, e.getD 0))
  let v := Number.ofDecimal negative (Number.ofDigits (whole ++ fraction))
    (exponent - (fraction.length : Int))
  if Number.equal v (Number.infinity false) then failure else pure (.float v)

/-- The name of an infinity or of no number. -/
def namedFloat : Scan Toml := do
  let negative ← sign
  (do text "inf"; pure (.float (Number.infinity negative))) <|>
    (do text "nan"; pure (.float Number.undefined))

/-- An integer of 64 bits. -/
def bounded (n : Int) : Scan Toml :=
  if -0x8000000000000000 ≤ n ∧ n < 0x8000000000000000 then pure (.integer n) else failure

/-- An integer in another base, after the mark of the base. -/
def basedInteger (mark : String) (base : Nat) (p : Char → Bool) : Scan Toml := do
  text mark
  let ds ← digitRun p
  bounded (ofBase base ds)

/-- An integer. -/
def integer : Scan Toml :=
  basedInteger "0x" 16 isHexDigit <|>
  basedInteger "0o" 8 (fun c => '0' ≤ c && c ≤ '7') <|>
  basedInteger "0b" 2 (fun c => c == '0' || c == '1') <|>
  (do
    let negative ← sign
    let ds ← wholePart
    let n : Int := Number.ofDigits ds
    bounded (if negative then -n else n))

/-! ## Dates -/

/-- A number of a fixed count of digits within bounds. -/
def field (digits low high : Nat) : Scan Nat := do
  let ds ← exactly Number.isDigit digits
  let n := Number.ofDigits ds
  if low ≤ n ∧ n ≤ high then pure n else failure

/-- The number of days of a month. -/
def daysIn (year month : Nat) : Nat :=
  if month = 2 then
    if year % 4 = 0 ∧ (year % 100 ≠ 0 ∨ year % 400 = 0) then 29 else 28
  else if month = 4 ∨ month = 6 ∨ month = 9 ∨ month = 11 then 30
  else 31

/-- A day of the calendar. -/
def day : Scan Unit := do
  let year ← field 4 0 9999
  char '-'
  let month ← field 2 1 12
  char '-'
  let _ ← field 2 1 (daysIn year month)

/-- A time of the day.  The last minute of a day may have a leap second. -/
def time : Scan Unit := do
  let _ ← field 2 0 23
  char ':'
  let _ ← field 2 0 59
  char ':'
  let _ ← field 2 0 60
  let _ ← opt (do char '.'; run1 Number.isDigit)

/-- The distance of a local time from the universal one. -/
def offset : Scan Unit :=
  (do let _ ← one fun c => c == 'Z' || c == 'z') <|>
    (do
      let _ ← one fun c => c == '+' || c == '-'
      let _ ← field 2 0 23
      char ':'
      let _ ← field 2 0 59)

/-- A date, a time, or both. -/
def dateTime : Scan Toml :=
  (do
    day
    let _ ← opt (do
      let _ ← one fun c => c == 'T' || c == 't' || c == ' '
      time
      opt offset)
    pure .date) <|>
  (do time; pure .date)

end Aquarium.Toml.Lexeme
