import MemShell.Text.Basic
import MemShell.Text.Printable

/-!
# Quoted text

A text between quotes, on one line and in printable characters only. Double quotes are used where
the text holds a single quote and no double one, single quotes everywhere else.
-/

namespace MemShell.Text

/-- The lower-case hexadecimal digits of a number, filled up with zeros to a least width. -/
def hex (width : Nat) (n : Nat) : Text := padLeft width '0' (Nat.toDigits 16 n)

/-- The quote that stands around a text. -/
def quoteFor (text : Text) : Char :=
  if text.contains '\'' && !text.contains '"' then '"' else '\''

/-- A character as it is written between quotes of one kind. -/
def escapeChar (quote c : Char) : Text :=
  if c = quote ∨ c = '\\' then ['\\', c]
  else if c = '\t' then ['\\', 't']
  else if c = '\n' then ['\\', 'n']
  else if c = '\r' then ['\\', 'r']
  else if isPrintable c then [c]
  else if c.toNat < 0x100 then ['\\', 'x'] ++ hex 2 c.toNat
  else if c.toNat < 0x10000 then ['\\', 'u'] ++ hex 4 c.toNat
  else ['\\', 'U'] ++ hex 8 c.toNat

/-- A text between quotes. -/
def quoted (text : Text) : Text :=
  quoteFor text :: text.flatMap (escapeChar (quoteFor text)) ++ [quoteFor text]

end MemShell.Text
