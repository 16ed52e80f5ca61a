import MemShell.Word.Glob

/-!
# Patterns

A segment of marked text is written as a pattern in the language of regular expressions, which is
matched against whole names. Of the language there is what these patterns are made of: characters,
sets of all characters but one, repetition, and a look at the character ahead. A character behind a
backslash means itself unless it is an ASCII letter or digit, and a line feed is a character like
any other.
-/

namespace MemShell

namespace Regex

/-- What stands for a single character. -/
inductive Atom
  /-- The character itself. -/
  | char (c : Char)
  /-- Any other character. -/
  | other (c : Char)
  deriving DecidableEq

/-- Whether an atom stands for a character. -/
def Atom.accepts : Atom → Char → Bool
  | char c, d => d == c
  | other c, d => d != c

/-- A part of a regular expression. -/
inductive Item
  /-- One character that an atom stands for. -/
  | one (atom : Atom)
  /-- Any number of characters that an atom stands for. -/
  | many (atom : Atom)
  /-- No character, but a certain one must not come next. -/
  | notAhead (c : Char)
  deriving DecidableEq

end Regex

/-- A regular expression, which is a row of items. -/
abbrev Regex := List Regex.Item

namespace Regex

/-- A regular expression matches a whole text. -/
inductive Matches : Regex → Text → Prop
  /-- Without items there is nothing to match. -/
  | nil : Matches [] []
  /-- A single character is taken. -/
  | one {atom : Atom} {c : Char} {items : Regex} {text : Text} (h : atom.accepts c = true)
      (rest : Matches items text) : Matches (.one atom :: items) (c :: text)
  /-- Several characters are taken. -/
  | many {atom : Atom} {piece : Text} {items : Regex} {text : Text}
      (h : ∀ c ∈ piece, atom.accepts c = true) (rest : Matches items text) :
      Matches (.many atom :: items) (piece ++ text)
  /-- Nothing is taken. -/
  | notAhead {c : Char} {items : Regex} {text : Text} (h : text.head? ≠ some c)
      (rest : Matches items text) : Matches (.notAhead c :: items) text

/-- The characters that mean something else than themselves. -/
def metacharacters : List Char := ['\\', '.', '[', '\x7b', '(', ')', '*', '+', '?', '^', '$', '|']

/-- The regular expression that a pattern denotes behind items that have been read, the last one
first. There is none if the pattern is malformed or something else than the supported parts stands
in it. -/
def readFrom (done : List Item) : Text → Option Regex
  | [] => some done.reverse
  | '*' :: rest =>
    match done with
    | .one atom :: earlier => readFrom (.many atom :: earlier) rest
    | _ => none
  | '\\' :: c :: rest => if c.isAlphanum then none else readFrom (.one (.char c) :: done) rest
  | '[' :: '^' :: c :: ']' :: rest =>
    if c ∈ ['[', ']', '\\'] then none else readFrom (.one (.other c) :: done) rest
  | '(' :: '?' :: '!' :: '\\' :: c :: ')' :: rest =>
    if c.isAlphanum then none else readFrom (.notAhead c :: done) rest
  | c :: rest => if c ∈ metacharacters then none else readFrom (.one (.char c) :: done) rest

/-- The regular expression that a pattern denotes, if it is made of supported parts. -/
def read (pattern : Text) : Option Regex := readFrom [] pattern

/-- The characters that are written with a backslash when they are meant literally. -/
def escapable : List Char :=
  ['(', ')', '[', ']', '\x7b', '\x7d', '?', '*', '+', '-', '|', '^', '$', '\\', '.', '&', '~', '#',
    ' ', '\t', '\n', '\r', '\x0b', '\x0c']

/-- The pattern of a character that is meant literally. -/
def escape (c : Char) : Text := if c ∈ escapable then ['\\', c] else [c]

end Regex

/-- The pattern of a glyph. -/
def Glyph.pattern : Glyph → Text
  | ⟨c, false⟩ => Regex.escape c
  | ⟨'?', true⟩ => ['[', '^', '/', ']']
  | ⟨_, true⟩ => ['[', '^', '/', ']', '*']

namespace Glob

/-- The pattern of a segment of marked text. If the segment starts with a wildcard no dot may come
first, and without a first character there is no pattern. -/
def pattern? (segment : Text) : Option Text :=
  let glyphs := Marked.decode segment
  if glyphs.isEmpty then none
  else
    some ((if startsWild glyphs then ['(', '?', '!', '\\', '.', ')'] else []) ++
      glyphs.flatMap Glyph.pattern)

/-- The regular expression that a segment of marked text is matched with. -/
def compile? (segment : Text) : Option Regex := (pattern? segment).bind Regex.read

end Glob

end MemShell
