import Pinpoint.Text.Ranges

/-!
# Blank characters

The characters with the property White_Space, and text without those at its ends.
-/

namespace Pinpoint.Text

/-- The blank characters, ASCII and all. -/
def blanks : Ranges :=
  [(0x9, 0xD), (0x20, 0x20), (0x85, 0x85), (0xA0, 0xA0), (0x1680, 0x1680), (0x2000, 0x200A), (0x2028, 0x2029),
    (0x202F, 0x202F), (0x205F, 0x205F), (0x3000, 0x3000)]

def isBlank (c : Char) : Bool := blanks.contains c

/-- The text from its first character that is not blank to its last. -/
def trim (cs : List Char) : List Char := ((cs.dropWhile isBlank).reverse.dropWhile isBlank).reverse

end Pinpoint.Text
