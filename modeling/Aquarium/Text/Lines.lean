/-!
# Lines of a text

A line ends at a newline, and a carriage return right before that newline (or at the very end of
the text) belongs to the line ending.  Splitting is done on lists of characters.
-/

namespace Aquarium.Text

/-- Cuts a text at every newline.  There is always at least one piece. -/
def splitLines : List Char → List (List Char)
  | [] => [[]]
  | c :: cs =>
      if c = '\n' then [] :: splitLines cs
      else
        match splitLines cs with
        | [] => [[c]]
        | line :: rest => (c :: line) :: rest

/-- Drops one carriage return from the end of a line. -/
def dropReturn (line : List Char) : List Char :=
  if line.getLast? = some '\r' then line.dropLast else line

/-- The lines of a text without their endings. -/
def lines (s : String) : List (List Char) :=
  (splitLines s.toList).map dropReturn

/-- Drops one line ending, with or without a carriage return, from the end of a text. -/
def dropLineEnd (cs : List Char) : List Char :=
  if cs.getLast? = some '\n' then dropReturn cs.dropLast else cs

/-- The text without one line ending at its end. -/
def stripLineEnd (s : String) : String := String.ofList (dropLineEnd s.toList)

end Aquarium.Text
