import MemShell.Token.Basic
import MemShell.Text.Blank

/-!
# Splitting lines into tokens

Blank characters outside all groups end words. Quotes and braces have to be closed, and inside a
brace group a quoted span holds no closing brace.
-/

namespace MemShell

/-- Why a line cannot be split; the position is counted in characters from the start of the line. -/
inductive LexError
  /-- The line ends in a backslash. -/
  | trailingBackslash (position : Nat)
  /-- A brace is closed that was not opened. -/
  | unopenedBrace (position : Nat)
  /-- A brace is closed inside a quoted span. -/
  | braceInQuotes (position : Nat)
  /-- A brace group is open at the end of the line. -/
  | unclosedBrace (position : Nat)
  /-- A quoted span is open at the end of the line. -/
  | unclosedQuote (quote : Char) (position : Nat)
  deriving DecidableEq

namespace LexError

/-- Where splitting failed. -/
def position : LexError → Nat
  | trailingBackslash p => p
  | unopenedBrace p => p
  | braceInQuotes p => p
  | unclosedBrace p => p
  | unclosedQuote _ p => p

/-- The error at a later position. -/
def shift (by_ : Nat) : LexError → LexError
  | trailingBackslash p => trailingBackslash (p + by_)
  | unopenedBrace p => unopenedBrace (p + by_)
  | braceInQuotes p => braceInQuotes (p + by_)
  | unclosedBrace p => unclosedBrace (p + by_)
  | unclosedQuote quote p => unclosedQuote quote (p + by_)

/-- The message of a lexical error. -/
def message : LexError → Text
  | trailingBackslash _ =>
    "Unexpected end of input. '\\' was used but there was nothing to escape."
  | unopenedBrace _ => "Unexpected closing '\x7d' without corresponding '\x7b'."
  | braceInQuotes _ => "Unexpected closing '\x7d' before closing quotation mark."
  | unclosedBrace _ => "Unexpected end of input. Missing closing '\x7d'."
  | unclosedQuote quote _ => "Unexpected end of input. Missing closing " ++ [quote] ++ "."

end LexError

/-- What a character does to the groups around it. -/
inductive GroupStep
  /-- The character is part of a word, with these groups open after it. -/
  | keep (groups : List Group)
  /-- The character is outside all groups and opens none. -/
  | plain
  /-- The character may not stand here. -/
  | refuse (error : Nat → LexError)

/-- The step of a character, a backslash left aside, inside groups with the innermost first. -/
def groupStep (groups : List Group) (c : Char) : GroupStep :=
  match Group.ofQuote? c with
  | some quote =>
    match groups with
    | top :: rest =>
      if top = quote then .keep rest
      else if top.isQuote then .keep groups
      else .keep (quote :: groups)
    | [] => .keep [quote]
  | none =>
    if c = '\x7b' then
      match groups with
      | top :: _ => if top.isQuote then .keep groups else .keep (.brace :: groups)
      | [] => .keep [.brace]
    else if c = '\x7d' then
      match groups with
      | [] => .refuse .unopenedBrace
      | top :: rest =>
        if top = .brace then .keep rest
        else if .brace ∈ groups then .refuse .braceInQuotes
        else .keep groups
    else if groups.isEmpty then .plain
    else .keep groups

namespace Token

/-- The tokens of a word that has been collected; an empty one is none. -/
def ofCurrent (current : Text) : List Token := if current.isEmpty then [] else [.word current]

/-- The tokens of a redirect operator after a collected word: digits become part of the operator. -/
def ofRedirect (current : Text) (mode : RedirectMode) : List Token :=
  if Text.isDecimal current then [.redirect current mode]
  else ofCurrent current ++ [.redirect [] mode]

/-- The tokens of the rest of a line, where a position has been reached, groups are open with the
innermost first, and a word has been collected. -/
def scan (position : Nat) (groups : List Group) (current : Text) :
    Text → Except LexError (List Token)
  | [] =>
    match groups with
    | [] => .ok (ofCurrent current)
    | .brace :: _ => .error (.unclosedBrace position)
    | quote :: _ => .error (.unclosedQuote quote.opening position)
  | c :: rest =>
    if c = '\\' then
      match rest with
      | [] => .error (.trailingBackslash position)
      | d :: after => scan (position + 2) groups (current ++ [c, d]) after
    else
      match groupStep groups c with
      | .refuse error => .error (error position)
      | .keep groups => scan (position + 1) groups (current ++ [c]) rest
      | .plain =>
        if Text.isBlank c then
          (scan (position + 1) [] [] rest).map (ofCurrent current ++ ·)
        else if c = ';' then
          (scan (position + 1) [] [] rest).map (ofCurrent current ++ .separator :: ·)
        else if c = '>' then
          match rest with
          | [] => .ok (ofRedirect current .write)
          | d :: after =>
            if d = '>' then (scan (position + 2) [] [] after).map (ofRedirect current .append ++ ·)
            else (scan (position + 1) [] [] (d :: after)).map (ofRedirect current .write ++ ·)
        else scan (position + 1) [] (current ++ [c]) rest

/-- The tokens of a line. -/
def tokenize (line : Text) : Except LexError (List Token) := scan 0 [] [] line

/-- The tokens between separators; there is always one more piece than separators. -/
def pieces : List Token → List (List Token)
  | [] => [[]]
  | .separator :: rest => [] :: pieces rest
  | token :: rest =>
    match pieces rest with
    | [] => [[token]]
    | piece :: others => (token :: piece) :: others

/-- The tokens of each command of a line. Commands without tokens are left out. -/
def commands (tokens : List Token) : List (List Token) := (pieces tokens).filter (!·.isEmpty)

/-- The commands of a line. -/
def split (line : Text) : Except LexError (List (List Token)) := (tokenize line).map commands

end Token

end MemShell
