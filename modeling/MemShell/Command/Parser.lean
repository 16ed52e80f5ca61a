import MemShell.Command.Invocation
import MemShell.Text.Case
import MemShell.Token.Lexer
import MemShell.Word.Expansion
import MemShell.Word.Glob

/-!
# Parsing commands

Every word is expanded into texts. The first text is the command, options and arguments follow, and
a redirect takes the next word as its target. The last redirect of a stream counts. The number of a
stream is read once the target is known; one that is not read is an error that no parser expects.
-/

namespace MemShell

/-- Why a line or a command cannot be parsed. -/
inductive ParseError
  /-- The line cannot be split into tokens. -/
  | lexical (error : LexError)
  /-- A word cannot be resolved. -/
  | word (error : WordError)
  /-- A pattern matches nothing. -/
  | noMatch (pattern : Text)
  /-- A value is given to several letters at once. -/
  | groupedValue (word : Text)
  /-- A redirect is not followed by a word. -/
  | missingTarget (operator : Text)
  /-- The target of a redirect does not stand for one text. -/
  | ambiguousTarget (target : Text)
  deriving DecidableEq

/-- Why a line or a command is not parsed. -/
inductive ParseFailure
  /-- It cannot be parsed. -/
  | refused (error : ParseError)
  /-- The number of a stream is not read. -/
  | numeral (error : NumeralError)
  deriving DecidableEq

/-- The message of a parse error. -/
def ParseError.message : ParseError → Text
  | lexical error => error.message
  | word error => error.message
  | noMatch pattern => "No matches found for '" ++ pattern ++ "'."
  | groupedValue _ => "Cannot assign value to multiple short options."
  | missingTarget operator => "Missing redirect target after '" ++ operator ++ "'."
  | ambiguousTarget target => "Ambiguous redirect target '" ++ target ++ "'."

/-- The directory that relative paths start from. -/
def Environment.cwd (env : Environment) : Text := env.getD "cwd" ['/']

namespace Word

/-- The texts that a word stands for. A word that comes to nothing without a group in it stands for
none. -/
def expand (env : Environment) (fs : FileSystem) (word : Text) : Except ParseError (List Text) :=
  match mark env word with
  | .error error => .error (.word error)
  | .ok marked =>
    if marked.isEmpty && !opensGroup word then .ok []
    else
      match Glob.expand? fs (Path.ofText env.cwd) marked with
      | none => .error (.noMatch (Marked.unmark marked))
      | some found => .ok (found.map Marked.unmark)

end Word

/-- The texts and the redirects of a command. -/
structure Gathered where
  /-- The texts that the words stand for. -/
  words : List Text
  /-- The redirects as they came. -/
  redirects : List (Int × Redirect)

namespace Gathered

/-- What words and redirects give before the rest of a command. -/
def before (words : List Text) (redirects : List (Int × Redirect)) (rest : Gathered) : Gathered :=
  ⟨words ++ rest.words, redirects ++ rest.redirects⟩

/-- The texts and redirects of tokens, given the expansion of words. -/
def ofTokens (expand : Text → Except ParseError (List Text)) :
    List Token → Except ParseFailure Gathered
  | [] => .ok ⟨[], []⟩
  | .word value :: rest =>
    match expand value with
    | .error error => .error (.refused error)
    | .ok words => do
      return (← ofTokens expand rest).before words []
  | .redirect digits mode :: .word target :: rest =>
    match expand target with
    | .error error => .error (.refused error)
    | .ok [path] =>
      match streamNumber digits with
      | .error error => .error (.numeral error)
      | .ok stream => do
        return (← ofTokens expand rest).before [] [((stream : Int), ⟨mode, path⟩)]
    | .ok _ => .error (.refused (.ambiguousTarget target))
  | .redirect digits mode :: _ =>
    .error (.refused (.missingTarget (Token.redirect digits mode).text))
  | .separator :: rest => ofTokens expand rest

end Gathered

namespace Invocation

/-- The command that texts and redirects make up. -/
def ofGathered (gathered : Gathered) : Except ParseError Invocation :=
  match gathered.words with
  | [] => .ok ⟨none, .empty, [], .ofList gathered.redirects⟩
  | name :: words =>
    match Options.read words with
    | .error word => .error (.groupedValue word)
    | .ok (options, args) =>
      .ok ⟨some (Text.lower name), options, args, .ofList gathered.redirects⟩

/-- The command that tokens make up in an environment and a file system. -/
def ofTokens (env : Environment) (fs : FileSystem) (tokens : List Token) :
    Except ParseFailure Invocation :=
  match Gathered.ofTokens (Word.expand env fs) tokens with
  | .error failure => .error failure
  | .ok gathered =>
    match ofGathered gathered with
    | .error error => .error (.refused error)
    | .ok invocation => .ok invocation

/-- The commands of a line, all of them parsed in one environment and one file system. -/
def parseLine (env : Environment) (fs : FileSystem) (line : Text) :
    Except ParseFailure (List Invocation) :=
  match Token.split line with
  | .error error => .error (.refused (.lexical error))
  | .ok commands => commands.mapM (ofTokens env fs)

end Invocation

end MemShell
