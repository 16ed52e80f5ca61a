import MemShell.Text.Basic
import MemShell.Text.Ranges

/-!
# Blank characters

The twenty-nine characters of bidirectional type WS, B or S, or of category Zs. They separate words,
and they are what stripping removes.
-/

namespace MemShell.Text

/-- The intervals of blank characters. -/
def blankRanges : CharRanges :=
  [(0x9, 0xd), (0x1c, 0x20), (0x85, 0x85), (0xa0, 0xa0), (0x1680, 0x1680), (0x2000, 0x200a),
    (0x2028, 0x2029), (0x202f, 0x202f), (0x205f, 0x205f), (0x3000, 0x3000)]

/-- Whether a character is blank. -/
def isBlank (c : Char) : Bool := blankRanges.has c

/-- A text without the blank characters at its ends. -/
def strip (text : Text) : Text :=
  ((text.dropWhile isBlank).reverse.dropWhile isBlank).reverse

end MemShell.Text
