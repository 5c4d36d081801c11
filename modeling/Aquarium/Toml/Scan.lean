/-!
# Scanners

A scanner takes characters off the front of a text and answers a value, or fails.  The monad is
the state transformer over `Option`, so that sequencing and choice are those of the library.
Repetition is bounded by the length of the text, which every repeated scanner shortens.
-/

namespace Aquarium.Toml

/-- Takes characters off the front of a text, or fails. -/
abbrev Scan := StateT (List Char) Option

namespace Scan

/-- One character of a class. -/
def one (p : Char → Bool) : Scan Char := fun cs =>
  match cs with
  | c :: rest => if p c then some (c, rest) else none
  | [] => none

/-- The characters of a class at the front, possibly none. -/
def run (p : Char → Bool) : Scan (List Char) := fun cs => some (cs.span p)

/-- At least one character of a class. -/
def run1 (p : Char → Bool) : Scan (List Char) := do
  let c ← one p
  let cs ← run p
  pure (c :: cs)

/-- Exactly one given character. -/
def char (c : Char) : Scan Unit := do
  let _ ← one (· == c)

/-- Exactly the given text. -/
def text (s : String) : Scan Unit := fun cs =>
  if s.toList.isPrefixOf cs then some ((), cs.drop s.length) else none

/-- A fixed number of characters of a class. -/
def exactly (p : Char → Bool) : Nat → Scan (List Char)
  | 0 => pure []
  | n + 1 => do
      let c ← one p
      let cs ← exactly p n
      pure (c :: cs)

/-- The end of the text. -/
def atEnd : Scan Unit := fun cs => if cs.isEmpty then some ((), cs) else none

/-- A scanner or nothing. -/
def opt {α : Type} (p : Scan α) : Scan (Option α) := (some <$> p) <|> pure none

/-- As many as there are, but at most a given number. -/
def manyUpTo {α : Type} (p : Scan α) : Nat → Scan (List α)
  | 0 => pure []
  | n + 1 =>
      (do
        let a ← p
        let rest ← manyUpTo p n
        pure (a :: rest)) <|> pure []

/-- As many as there are. -/
def many {α : Type} (p : Scan α) : Scan (List α) := fun cs => manyUpTo p cs.length cs

/-- At least one, with separators in between. -/
def sepBy1 {α : Type} (p : Scan α) (sep : Scan Unit) : Scan (List α) := do
  let first ← p
  let rest ← many (do sep; p)
  pure (first :: rest)

/-- Any number, with separators in between. -/
def sepBy {α : Type} (p : Scan α) (sep : Scan Unit) : Scan (List α) := sepBy1 p sep <|> pure []

end Scan

end Aquarium.Toml
