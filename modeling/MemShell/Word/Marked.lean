import MemShell.Text.Basic

/-!
# Marked text

Text in which wildcards differ from the same characters taken literally. A wildcard follows a
marker, and a marker that is meant literally is written twice.
-/

namespace MemShell

/-- A character that marked text denotes. -/
structure Glyph where
  /-- The character. -/
  char : Char
  /-- Whether it is a wildcard. -/
  isWildcard : Bool
  deriving DecidableEq

namespace Marked

/-- The character in front of a wildcard. -/
def marker : Char := '\x1b'

/-- Whether a character can be a wildcard. -/
def isGlobChar (c : Char) : Bool := c == '?' || c == '*'

/-- A wildcard as marked text. -/
def wildcard (c : Char) : Text := [marker, c]

/-- A text taken literally, as marked text. -/
def escape (text : Text) : Text := text.flatMap fun c => if c = marker then [marker, marker] else [c]

/-- The characters that marked text denotes. A marker in front of anything else than a wildcard or a
marker is a character like any other. -/
def decode : Text → List Glyph
  | [] => []
  | [c] => [⟨c, false⟩]
  | c :: d :: rest =>
    if c = marker ∧ isGlobChar d then ⟨d, true⟩ :: decode rest
    else if c = marker ∧ d = marker then ⟨marker, false⟩ :: decode rest
    else ⟨c, false⟩ :: decode (d :: rest)

/-- The plain text that marked text denotes. -/
def unmark (text : Text) : Text := (decode text).map Glyph.char

/-- Whether marked text holds a wildcard. -/
def hasWildcard (text : Text) : Bool := (decode text).any Glyph.isWildcard

end Marked

end MemShell
