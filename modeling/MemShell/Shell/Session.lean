import MemShell.History.Basic
import MemShell.Settings.Basic
import MemShell.Shell.Line

/-!
# Shells

A shell is a world and a memory with a table of commands and streams for them. The memory holds the
lines that were entered and the exit code of the last one.
-/

namespace MemShell

/-- A shell. -/
structure Shell extends Memory where
  /-- The world of its commands. -/
  world : World
  /-- Its commands. -/
  table : CommandTable
  /-- The streams of its commands. -/
  streams : StreamSet
  /-- Whether it asks for another line. -/
  running : Bool
  /-- What was logged. -/
  log : List LogEntry

/-- A piece of work of a shell that a crash may end. -/
abbrev ShellOp := EStateM Crash Shell

namespace Shell

instance : Inhabited Shell :=
  ⟨⟨.create default, default, ⟨.empty, none, fun _ => none⟩, ⟨0, 0, 0⟩, false, []⟩⟩

/-- A shell in a world that a piece of work has set up. -/
def create (settings : Settings) (fallback : Option Handler) (streams : StreamSet)
    (setUp : Progress) : Shell where
  toMemory := .create (.create [] settings.historySize)
  world := setUp.world
  table := ⟨.empty, fallback, fun _ => none⟩
  streams := streams
  running := false
  log := setUp.log

/-- The shell after a record has been logged. -/
def logged (record : Record) (shell : Shell) : Shell :=
  { shell with log := shell.log ++ [⟨record, shell.world.terminal.err.length⟩] }

/-- The shell with a handler for a name, which is taken in lower case. It takes the place of one
that a handler has registered. -/
def register (name : Text) (handler : Handler) (shell : Shell) : Shell :=
  { shell with
    table := { shell.table with handlers := shell.table.handlers.insert (Text.lower name) handler }
    bindings := shell.bindings.erase (Text.lower name) }
  |>.logged (Journal.registered (Text.lower name))

/-- The shell with handlers for several names, registered in order. -/
def registerAll (commands : List (Text × Handler)) (shell : Shell) : Shell :=
  commands.foldl (fun shell (name, handler) => shell.register name handler) shell

/-- The names of the commands in order. -/
def commandNames (shell : Shell) : List Text :=
  let added := shell.bindings.keys.filter fun name =>
    (shell.table.bound? shell.toMemory name).isSome && !shell.table.handlers.contains name
  (shell.table.handlers.keys ++ added).mergeSort Text.notAfter

/-- How far the work of the shell has come when no command has asked it to stop. -/
def progress (shell : Shell) : Progress := ⟨shell.world, shell.toMemory, false, shell.log⟩

/-- The shell after a piece of work. -/
def took (shell : Shell) (progress : Progress) : Shell :=
  { shell with
    toMemory := progress.memory
    world := progress.world
    running := shell.running && !progress.stops
    log := progress.log }

/-- A piece of work of the shell. -/
def act {α : Type} (action : Action Crash α) : ShellOp α := fun shell =>
  match action.run shell.progress with
  | .ok value progress => .ok value (shell.took progress)
  | .error crash progress => .error crash (shell.took progress)

/-- Runs a line on given streams, and gives its exit code. -/
def execute (streams : StreamSet) (line : Text) : ShellOp Int := do
  modify fun shell => { shell with history := shell.history.add line }
  let shell ← EStateM.get
  let code ← act (Action.runLine shell.table streams line)
  modify fun shell => { shell with lastExit := code }
  return code

/-- The lines of a script that are run: blanks around a line are dropped, and empty lines and lines
that start with a hash sign are left out. -/
def scriptLines (script : Text) : List Text :=
  ((Text.splitOn '\n' script).map Text.strip).filter fun line =>
    !line.isEmpty && line.head? != some '#'

/-- Runs lines one after the other. The exit code is that of the last one, and the given one if
there are none. -/
def executeAll (streams : StreamSet) (code : Int) : List Text → ShellOp Int
  | [] => return code
  | line :: rest => do
    let code ← execute streams line
    executeAll streams code rest

/-- Runs a script. -/
def runScript (streams : StreamSet) (script : Text) : ShellOp Int :=
  executeAll streams ExitCode.success (scriptLines script)

/-- A directory as the prompt shows it: the home directory is a tilde. -/
def promptDirectory (home : Option Text) (cwd : Text) : Text :=
  match home with
  | none => cwd
  | some home =>
    if home ≠ [] ∧ home ≠ ['/'] ∧ (cwd = home ∨ (home ++ ['/']).isPrefixOf cwd) then
      '~' :: cwd.drop home.length
    else cwd

/-- The prompt that settings give. -/
def prompt (settings : Settings) (shell : Shell) : Text :=
  let env := shell.world.environment
  env.getD "user" [] ++ "@" ++ settings.hostname ++ ":" ++
    promptDirectory (env.get? "home") env.cwd ++ settings.promptSuffix

end Shell

end MemShell
