import Aquarium.Number.Numeral

/-!
# What a program prints

A program prints characters and numbers.  They are kept apart until they are rendered as text.
-/

namespace Aquarium

/-- A printed character or number. -/
inductive Emission where
  | char (c : Char)
  | number (v : Float)
deriving DecidableEq

namespace Emission

/-- The text of one emission. -/
def text : Emission → String
  | .char c => String.singleton c
  | .number v => Number.printed v

/-- The text of several emissions, one after the other. -/
def render (es : List Emission) : String := String.join (es.map text)

end Emission

end Aquarium
