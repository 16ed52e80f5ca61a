import MemShell.Environment.Basic
import MemShell.Token.Basic
import MemShell.Word.Marked

/-!
# Resolving words

A word becomes marked text: escapes, quotes and braces are resolved, variables and the home
directory are put in, and the wildcards that remain are marked.

Outside quotes a backslash makes the next significant character literal and is kept before any
other. Inside quotes only the closing quote can be escaped, and single quotes hold no variables.
Inside braces wildcards and the tilde are literal, and quoted spans keep their quotes.
-/

namespace MemShell

/-- Why a word cannot be resolved. -/
inductive WordError
  /-- A brace is closed that is not the innermost group. -/
  | unopenedBrace (word : Text)
  /-- A group is open at the end of the word. -/
  | unclosedGroup (word : Text)
  /-- A dollar sign is not followed by a name. -/
  | missingName (word : Text)
  deriving DecidableEq

/-- The message of a word error. -/
def WordError.message : WordError → Text
  | unopenedBrace _ => "Unexpected closing '\x7d' without corresponding '\x7b'."
  | unclosedGroup _ => "Unterminated quote or group."
  | missingName _ => "Missing variable name after '$'."

namespace Word

/-- The characters that a backslash makes literal outside quotes. -/
def escapable : List Char :=
  ['\\', ' ', '\t', '\n', '\r', '\x0c', '\x0b', ';', '~', '$', '>', '?', '*', '\'', '"', '\x7b', '\x7d']

/-- The longest name at the start of a text. -/
def variableName (text : Text) : Text := text.takeWhile Environment.isNameChar

/-- What follows the longest name at the start of a text. -/
def afterName (text : Text) : Text := text.dropWhile Environment.isNameChar

/-- What a backslash and the character after it stand for inside groups, the innermost first. -/
def escaped (groups : List Group) (c : Char) : Text :=
  match groups with
  | top :: _ =>
    if top.isQuote then
      if c = top.opening ∧ .brace ∉ groups then [c] else ['\\', c]
    else if c ∈ escapable then [c] else ['\\', c]
  | [] => if c ∈ escapable then [c] else ['\\', c]

/-- The home directory, which a tilde stands for; without one the tilde stands for itself. -/
def home (env : Environment) : Text := env.getD "home" ['~']

/-- The quote of a span inside braces, which is kept, and nothing elsewhere. -/
def keptQuote (inBraces : Bool) (c : Char) : Text := if inBraces then [c] else []

private theorem length_afterName_le (text : Text) : (afterName text).length ≤ text.length :=
  (List.dropWhile_sublist _).length_le

/-- The marked text of the rest of a word with groups open around it, the innermost first. -/
def resolve (env : Environment) (word : Text) (groups : List Group) :
    Text → Except WordError Text
  | [] => if groups.isEmpty then .ok [] else .error (.unclosedGroup word)
  | '\\' :: rest =>
    match rest with
    | [] => (resolve env word groups []).map ('\\' :: ·)
    | c :: after => (resolve env word groups after).map (Marked.escape (escaped groups c) ++ ·)
  | '$' :: rest =>
    match groups with
    | .single :: _ => (resolve env word groups rest).map ('$' :: ·)
    | _ =>
      if (variableName rest).isEmpty then .error (.missingName word)
      else
        (resolve env word groups (afterName rest)).map
          (Marked.escape (env.getD (variableName rest) []) ++ ·)
  | c :: rest =>
    let inBraces := decide (Group.brace ∈ groups)
    match groups with
    | [] =>
      match Group.ofQuote? c with
      | some quote => resolve env word [quote] rest
      | none =>
        if c = '\x7b' then resolve env word [.brace] rest
        else if c = '\x7d' then .error (.unopenedBrace word)
        else if Marked.isGlobChar c then (resolve env word [] rest).map (Marked.wildcard c ++ ·)
        else (resolve env word [] rest).map (Marked.escape [c] ++ ·)
    | .brace :: outer =>
      match Group.ofQuote? c with
      | some quote => (resolve env word (quote :: groups) rest).map (c :: ·)
      | none =>
        if c = '\x7b' then resolve env word (.brace :: groups) rest
        else if c = '\x7d' then resolve env word outer rest
        else (resolve env word groups rest).map (Marked.escape [c] ++ ·)
    | quote :: outer =>
      if c = quote.opening then (resolve env word outer rest).map (keptQuote inBraces c ++ ·)
      else (resolve env word groups rest).map (Marked.escape [c] ++ ·)
termination_by text => text.length
decreasing_by
  all_goals grind [length_afterName_le]

/-- The marked text of a word. A tilde that is the whole word, or that a slash follows at the start
of the word, is the home directory. -/
def mark (env : Environment) (word : Text) : Except WordError Text :=
  match word with
  | ['~'] => .ok (Marked.escape (home env))
  | '~' :: '/' :: rest =>
    (resolve env word [] ('/' :: rest)).map (Marked.escape (home env) ++ ·)
  | _ => resolve env word [] word

/-- Whether a group is opened in a word. -/
def opensGroup : Text → Bool
  | [] => false
  | '\\' :: _ :: rest => opensGroup rest
  | c :: rest => (Group.ofQuote? c).isSome || c == '\x7b' || opensGroup rest

end Word

end MemShell
