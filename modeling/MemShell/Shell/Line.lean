import MemShell.Shell.Journal

/-!
# Running a line

The commands of a line run one after the other, each parsed in the world that the ones before it
have left. A command that fails reports its failure in a line and gives an exit code, and the next
one runs; only a crash ends the line.
-/

namespace MemShell

/-- The handlers of a shell. -/
structure CommandTable where
  /-- The handlers by name. -/
  handlers : OrderedMap Text Handler
  /-- The handler for all other names, if there is one. -/
  fallback : Option Handler
  /-- The handlers that handlers can register, by key. -/
  library : Text → Option Handler

/-- The handler that a handler has registered for a command. -/
def CommandTable.bound? (table : CommandTable) (memory : Memory) (name : Text) : Option Handler :=
  (memory.bindings.get? name).bind table.library

/-- The handler for a command. What a handler has registered comes before what was there. -/
def CommandTable.handler? (table : CommandTable) (memory : Memory) (name : Text) :
    Option Handler :=
  match table.bound? memory name with
  | some handler => some handler
  | none =>
    match table.handlers.get? name with
    | some handler => some handler
    | none => table.fallback

namespace ExitCode

/-- All went well. -/
def success : Int := 0

/-- Something failed. -/
def failure : Int := 1

/-- There is no such command. -/
def notFound : Int := 127

end ExitCode

/-- The mode in which the file of a redirect is opened. -/
def RedirectMode.openMode : RedirectMode → OpenMode
  | write => .write
  | append => .append

namespace StreamSet

/-- The streams with one of them replaced; there are streams 1 and 2, and any other number changes
nothing. -/
def redirected (streams : StreamSet) (number : Int) (handle : Handle) : StreamSet :=
  if number = 1 then { streams with out := handle }
  else if number = 2 then { streams with err := handle }
  else streams

/-- Whether a number is that of a stream that can be redirected. -/
def isKnown (number : Int) : Bool := number == 1 || number == 2

end StreamSet

namespace Action

/-- Writes the message of a fault as a line and logs it. -/
def report {ε : Type} (fault : Fault) (command : Option Text) (err : Handle) : Action ε Unit := do
  writeLine err fault.message.display
  log (Journal.failed fault command)

/-- The streams of a command with the files of its redirects opened one after the other. -/
def redirect (cwd : Text) : List (Int × Redirect) → StreamSet → Action Mishap StreamSet
  | [], streams => return streams
  | (number, target) :: rest, streams => do
    let handle ← openFile (Path.interpret cwd [target.target]) target.mode.openMode
    if !StreamSet.isKnown number then log (Journal.redirectIgnored number)
    redirect cwd rest (streams.redirected number handle)

/-- Says that a command is not known. -/
def refuse (name : Text) (err : Handle) : Action Crash Int := do
  writeLine err ("Unknown command '" ++ name ++ "'.")
  log (Journal.unknownCommand name)
  return ExitCode.notFound

/-- Runs a handler, and reports a mishap of it. -/
def handle (handler : Handler) (invocation : Invocation) (streams : StreamSet) :
    Action Crash Int := do
  match ← handler.run invocation streams with
  | .ok code => return code
  | .error (.mishap mishap) =>
    report mishap.fault invocation.command streams.err
    return ExitCode.failure
  | .error (.crash crash) => throw crash

/-- Runs a parsed command on streams that are set up for it. -/
def dispatch (table : CommandTable) (invocation : Invocation) (streams : StreamSet) :
    Action Crash Int := do
  match invocation.command with
  | none => return ExitCode.success
  | some name =>
    match table.handler? (← memory) name with
    | none => refuse name streams.err
    | some handler => handle handler invocation streams

/-- Runs a parsed command: its redirects first, and then its handler unless one of them failed. -/
def invoke (table : CommandTable) (streams : StreamSet) (invocation : Invocation) :
    Action Crash Int := do
  let cwd := (← world).environment.cwd
  match ← attempt (redirect cwd invocation.redirects.entries streams) with
  | .ok own => dispatch table invocation own
  | .error mishap =>
    report mishap.fault none streams.err
    return ExitCode.failure

/-- Runs the tokens of a command. A number of a redirect that is not read ends the line. -/
def runCommand (table : CommandTable) (streams : StreamSet) (tokens : List Token) :
    Action Crash Int := do
  let world ← world
  logAll (Journal.ofCommand world.environment world.files tokens)
  match Invocation.ofTokens world.environment world.files tokens with
  | .ok invocation => invoke table streams invocation
  | .error (.refused error) =>
    report error.fault none streams.err
    return ExitCode.failure
  | .error (.numeral error) => throw error.crash

/-- Runs commands one after the other. The exit code is that of the last one, and the given one if
there are none. -/
def runCommands (table : CommandTable) (streams : StreamSet) (code : Int) :
    List (List Token) → Action Crash Int
  | [] => return code
  | tokens :: rest => do
    let code ← runCommand table streams tokens
    runCommands table streams code rest

/-- Runs a line. A line that cannot be split is reported, and none of its commands runs. -/
def runLine (table : CommandTable) (streams : StreamSet) (line : Text) : Action Crash Int := do
  match Token.tokenize line with
  | .error error =>
    report error.fault none streams.err
    return ExitCode.failure
  | .ok tokens =>
    log (Journal.tokenized tokens)
    runCommands table streams ExitCode.success (Token.commands tokens)

end Action

end MemShell
