import MemShell.Command.Options
import MemShell.Token.Basic
import MemShell.Text.Quoted

/-!
# Invocations

The parsed form of one command: its name, options, arguments and the files that its streams go to.
-/

namespace MemShell

/-- Where a stream goes. -/
structure Redirect where
  /-- How the file is opened. -/
  mode : RedirectMode
  /-- The path of the file as it was given. -/
  target : Text
  deriving DecidableEq

/-- One command, ready to be run. -/
structure Invocation where
  /-- The name of the command; there is none when the line held redirects only. -/
  command : Option Text
  /-- The options. -/
  options : Options
  /-- The positional arguments. -/
  args : List Text
  /-- The redirects by stream number. -/
  redirects : OrderedMap Int Redirect
  deriving DecidableEq

/-- The word for a redirect mode. -/
def RedirectMode.name : RedirectMode → Text
  | write => "write"
  | append => "append"

/-- The constant of a redirect mode. -/
def RedirectMode.constant : RedirectMode → Text
  | write => "WRITE"
  | append => "APPEND"

/-- A redirect as a listing shows it. -/
def Redirect.display (redirect : Redirect) : Text :=
  "RedirectTarget(type=<RedirectType." ++ redirect.mode.constant ++ ": " ++
    Text.quoted redirect.mode.name ++ ">, target=" ++ Text.quoted redirect.target ++ ")"

/-- A value that may be absent, as a listing shows it. -/
def displayOption {α : Type} (display : α → Text) : Option α → Text
  | none => "None"
  | some value => display value

/-- A map as a listing shows it. -/
def displayMap {κ ν : Type} [DecidableEq κ] (key : κ → Text) (value : ν → Text)
    (map : OrderedMap κ ν) : Text :=
  "\x7b" ++ Text.join ", " (map.entries.map fun (k, v) => key k ++ ": " ++ value v) ++ "\x7d"

/-- A list of texts as a listing shows it. -/
def displayTexts (texts : List Text) : Text :=
  "[" ++ Text.join ", " (texts.map Text.quoted) ++ "]"

/-- Options as a listing shows them. -/
def Options.display (options : Options) : Text :=
  displayMap Text.quoted (displayOption Text.quoted) options

namespace Invocation

/-- The name of the command, empty when there is none. -/
def commandName (invocation : Invocation) : Text := invocation.command.getD []

/-- Whether there is no command. -/
def isEmpty (invocation : Invocation) : Bool := invocation.command.isNone

/-- The number of arguments. -/
def argc (invocation : Invocation) : Nat := invocation.args.length

/-- Whether one of several options was given. -/
def hasAnyOption (invocation : Invocation) (keys : List Text) : Bool :=
  keys.any invocation.options.contains

/-- Where a stream goes. -/
def redirect? (invocation : Invocation) (stream : Int) : Option Redirect :=
  invocation.redirects.get? stream

/-- Whether two invocations say the same; the order of options and redirects does not matter. -/
def agrees (a b : Invocation) : Bool :=
  decide (a.command = b.command) && a.options.agrees b.options && decide (a.args = b.args) &&
    a.redirects.agrees b.redirects

/-- The redirects in the order of their streams. -/
def sortedRedirects (invocation : Invocation) : List (Int × Redirect) :=
  invocation.redirects.entries.mergeSort fun a b => a.1 ≤ b.1

/-- An invocation on one line. -/
def display (invocation : Invocation) : Text :=
  "InputArgs(command=" ++ displayOption Text.quoted invocation.command ++ ", options=" ++
    invocation.options.display ++ ", args=" ++ displayTexts invocation.args ++
    ", redirect_targets=" ++ displayMap Text.ofInt Redirect.display invocation.redirects ++ ")"

/-- The lines that describe an invocation part by part. -/
def describe (invocation : Invocation) : List Text :=
  ["command: " ++ invocation.commandName, "options: " ++ invocation.options.display,
    "args:    " ++ displayTexts invocation.args] ++
  invocation.sortedRedirects.map fun (stream, redirect) =>
    "redirect " ++ Text.ofInt stream ++ ": " ++ redirect.mode.name ++ " " ++ redirect.target

end Invocation

end MemShell
