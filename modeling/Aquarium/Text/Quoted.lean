import Aquarium.Text.Printable

/-!
# Quoted characters and texts

A character is quoted between single quotes and a text between double quotes.  Inside, the quote
itself, the backslash and four controls have an escape of two characters, and every other
character that cannot be shown is written by its code point in hexadecimal.
-/

namespace Aquarium.Text

/-- The escape of a character by its code point. -/
def codeEscape (c : Char) : List Char :=
  ['\\', 'u', '\x7b'] ++ Nat.toDigits 16 c.toNat ++ ['\x7d']

/-- One character as it stands between a given pair of quotes. -/
def escaped (quote : Char) (c : Char) : List Char :=
  if c = '\x00' then ['\\', '0']
  else if c = '\t' then ['\\', 't']
  else if c = '\r' then ['\\', 'r']
  else if c = '\n' then ['\\', 'n']
  else if c = '\\' || c = quote then ['\\', c]
  else if isShown c then [c]
  else codeEscape c

/-- Characters between a pair of quotes. -/
def between (quote : Char) (cs : List Char) : String :=
  String.ofList (quote :: cs.flatMap (escaped quote) ++ [quote])

/-- A character between single quotes. -/
def quotedChar (c : Char) : String := between '\'' [c]

/-- A text between double quotes. -/
def quoted (s : String) : String := between '"' s.toList

end Aquarium.Text
