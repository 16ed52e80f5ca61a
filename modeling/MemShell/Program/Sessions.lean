import MemShell.Program.Launch
import MemShell.Shell.Commands
import MemShell.Shell.Interactive
import MemShell.Shell.Layout

/-!
# Sessions of the program

The two sessions that the program offers: one at the keyboard, in which every command is answered
with its parsed form, and a scripted one that shows its file system at the end. What a shell has
left on the console and in the log is shown in the order in which it came.
-/

namespace MemShell

namespace Logging

/-- Shows the errors of a console from a place on, with records logged where they came. -/
def replay (stamp errors : Text) (place : Nat) : List LogEntry → Logging → Logging
  | [], logging => logging.print (errors.drop place)
  | entry :: rest, logging =>
    replay stamp errors entry.place rest
      ((logging.print ((errors.take entry.place).drop place)).log stamp entry.record)

end Logging

namespace Shell

/-- Shows what a shell has left: its output, and the state of logging with its errors and its
records. -/
def flush (stamp : Text) (shell : Shell) (logging : Logging) : Text × Shell × Logging :=
  (shell.world.terminal.out,
    { shell with world := { shell.world with terminal := .blank }, log := [] },
    logging.replay stamp shell.world.terminal.err 0 shell.log)

end Shell

namespace Session

/-- The greeting of a session at the keyboard. -/
def banner : Text :=
  "ShellSim " ++ programVersion ++
    ". Every command is answered with its parsed form; type 'exit' to leave.\n\n"

/-- Streams for a session at the keyboard: nothing to read, and the console to write to. -/
def consoleStreams : Action Mishap StreamSet := do
  let ins ← Action.openEndpoint (.stream (.buffer []))
  let out ← Action.openEndpoint (.console .out)
  let err ← Action.openEndpoint (.console .err)
  return ⟨ins, out, err⟩

/-- Streams for a scripted session: output and errors go to one buffer. -/
def scriptStreams : Action Mishap StreamSet := do
  let ins ← Action.openEndpoint (.stream (.buffer []))
  let out ← Action.openEndpoint (.stream (.buffer []))
  return ⟨ins, out, out⟩

/-- A shell in the world that the settings describe, on streams of its own. -/
def shell (settings : Settings) (streams : Action Mishap StreamSet) : Except Mishap Shell := do
  let setUp ← settings.firstWorld
  match streams.run setUp with
  | .ok streams setUp => return .create settings (some Commands.inspect) streams setUp
  | .error mishap _ => throw mishap

/-- The shell of a session at the keyboard. -/
def interactive (settings : Settings) : Except Mishap Shell := do
  let shell ← shell settings consoleStreams
  return (shell.register "exit" Commands.exit).print banner

/-- The lines of the scripted session. -/
def script : List Text :=
  ["greet \"Hello, $user\" > greeting.txt",
    "note 'single $quoted text' >> greeting.txt",
    "list /home/*/greeting.tx?",
    "list -v --depth=2 -- -not-an-option \x7bliteral * and ?\x7d",
    "missing $ ; after error",
    "nomatch /tmp/*.log ; after error",
    "broken 'unterminated ; never parsed"]

/-- The text between two parts of the scripted session. -/
def heading (title : Text) : Text := "\n=== " ++ title ++ " ===\n\n"

/-- The shell after it has printed its output buffer. -/
def drained (shell : Shell) : Shell :=
  let (text, world) := shell.world.readAll shell.streams.out
  Shell.print text { shell with world := world }

/-- Runs a line of the script. -/
def scripted (settings : Settings) (line : Text) : ShellOp Unit := do
  modify fun shell => shell.print (shell.prompt settings ++ line ++ ['\n'])
  let code ← Shell.execute (← EStateM.get).streams line
  modify fun shell => (drained shell).print ("(exit " ++ Text.ofInt code ++ ")\n")

/-- How the file system is written at the end of the scripted session. -/
def dumpStyle : Json.Style := { Json.Style.spaced with indent := some "  ", itemSeparator := "," }

/-- Runs the whole scripted session. -/
def perform (settings : Settings) : ShellOp Unit := do
  modify (Shell.print (heading "Running scripted session"))
  script.forM (scripted settings)
  let text := (← EStateM.get).world.files.save dumpStyle
  modify fun shell => (shell.logged (Journal.saved text.length)).print
    (heading "File system" ++ text ++ ['\n'] ++ heading "Session complete")

/-- The shell after the whole scripted session. A crash ends the program. -/
def headless (settings : Settings) : Except Trouble Shell := do
  match (perform settings).run (← (shell settings scriptStreams).mapError .mishap) with
  | .ok _ shell => return shell
  | .error crash _ => throw (.crash crash)

end Session

end MemShell
