import MemShell.Shell.Session

/-!
# The interactive loop

The shell asks for a line with its prompt and runs it, until a command asks it to stop or the input
ends. An interrupt at the prompt runs nothing, and a crash ends its own line only: its text is shown
and the next line is asked for. A crash that cannot be shown ends the loop.
-/

namespace MemShell

/-- What comes from the keyboard. -/
inductive Input
  /-- A line. -/
  | line (text : Text)
  /-- An interrupt. -/
  | interrupt
  deriving DecidableEq

namespace Shell

/-- Writes a text to the output of the console. -/
def print (text : Text) (shell : Shell) : Shell :=
  { shell with
    world := { shell.world with terminal := shell.world.terminal.write text .out } }

/-- The shell at the start of the loop. -/
def begun (shell : Shell) : Shell := { shell with running := true }

/-- The shell at its prompt. -/
def prompted (prompt : Shell → Text) (shell : Shell) : Shell := shell.print (prompt shell)

/-- The shell after a crash has been logged and shown, as far as it can be shown. -/
def recovered (crash : Crash) (shell : Shell) : Shell :=
  let shell := shell.logged (Journal.crashed crash)
  match crash.text with
  | some text => shell.print ("shell: error: " ++ text ++ ['\n'])
  | none => shell

/-- The shell after it has answered an input, with the crash that it could not show. -/
def answered (shell : Shell) : Input → Shell × Option Crash
  | .interrupt => (shell.print "^C\n", none)
  | .line line =>
    match (execute shell.streams line).run shell with
    | .ok _ shell => (shell, none)
    | .error crash shell =>
      (shell.recovered crash, if crash.text.isNone then some crash else none)

/-- The shell after the end of its input. -/
def ended (shell : Shell) : Shell := { shell.print ['\n'] with running := false }

end Shell

/-- What the interactive loop leaves. -/
structure LoopEnd where
  /-- The shell. -/
  shell : Shell
  /-- The inputs that were not read. -/
  unread : List Input
  /-- The crash that has ended the loop since it could not be shown. -/
  escaped : Option Crash

namespace Shell

/-- Runs a shell on inputs until it stops. The prompt is any text that depends on the shell. -/
def interact (prompt : Shell → Text) (shell : Shell) : List Input → LoopEnd
  | [] => ⟨(shell.prompted prompt).ended, [], none⟩
  | input :: rest =>
    match (shell.prompted prompt).answered input with
    | (shell, some crash) => ⟨shell, rest, some crash⟩
    | (shell, none) =>
      if shell.running then shell.interact prompt rest else ⟨shell, rest, none⟩

/-- Runs the interactive loop. -/
def run (prompt : Shell → Text) (inputs : List Input) (shell : Shell) : LoopEnd :=
  shell.begun.interact prompt inputs

end Shell

end MemShell
