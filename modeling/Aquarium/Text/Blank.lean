/-!
# Blank texts

The characters with the Unicode property `White_Space`, and the texts made of nothing else.
-/

namespace Aquarium.Text

/-- Whether a character is white space. -/
def isBlankChar (c : Char) : Bool :=
  let n := c.toNat
  (9 ≤ n && n ≤ 13) || n == 0x20 || n == 0x85 || n == 0xA0 || n == 0x1680 ||
    (0x2000 ≤ n && n ≤ 0x200A) || n == 0x2028 || n == 0x2029 || n == 0x202F || n == 0x205F ||
    n == 0x3000

/-- Whether nothing is left of a text once white space is trimmed. -/
def isBlank (s : String) : Bool := s.toList.all isBlankChar

end Aquarium.Text
