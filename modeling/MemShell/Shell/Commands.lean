import MemShell.Shell.Line

/-!
# Commands

Handlers for a shell: one that answers every command with its parsed form, one that stops the shell,
and a set of plain commands on streams, variables and files.
-/

namespace MemShell

namespace Commands

open MemShell.Action

/-- Writes the parts of a command to its output. -/
def inspect : Handler := .ofAction fun invocation streams => do
  invocation.describe.forM (writeLine streams.out)
  return ExitCode.success

/-- Stops the shell. -/
def exit : Handler := .ofAction fun _ _ => do
  stop
  return ExitCode.success

/-- A command that goes well whatever happens in it, given its arguments. -/
def succeeding (action : List Text → StreamSet → Action Trouble Unit) : Handler :=
  .ofAction fun invocation streams => do
    action invocation.args streams
    return ExitCode.success

/-- The exit code of a command that complains. -/
def complaint : Int := 2

/-- Asks for more arguments. -/
def usage (err : Handle) : Action Trouble Int := do
  writeLine err "usage"
  return complaint

/-- A command on at least one argument. -/
def onOne (action : Invocation → StreamSet → Text → Action Trouble Unit) : Handler :=
  .ofAction fun invocation streams =>
    match invocation.args with
    | first :: _ => do
      action invocation streams first
      return ExitCode.success
    | [] => usage streams.err

/-- A command on at least two arguments. -/
def onTwo (action : Invocation → Text → Text → Action Trouble Unit) : Handler :=
  .ofAction fun invocation streams =>
    match invocation.args with
    | first :: second :: _ => do
      action invocation first second
      return ExitCode.success
    | _ => usage streams.err

/-- The path of an argument from the current directory. -/
def pathOf (argument : Text) : Action Trouble Path := do
  return Path.interpret (← world).environment.cwd [argument]

/-- Writes its arguments with blanks between them as a line. -/
def echo : Handler := succeeding fun args streams => writeLine streams.out (Text.join " " args)

/-- Writes its arguments one after the other. -/
def put : Handler := succeeding fun args streams => write streams.out args.flatten

/-- Writes a line to the errors. -/
def complain : Handler := .ofAction fun _ streams => do
  writeLine streams.err "complaint"
  return complaint

/-- Fails with an error that the shell reports. -/
def fail : Handler := .ofAction fun _ _ =>
  throw (.mishap (.file (.notFound (Path.ofText "/missing"))))

/-- Fails with an error that the shell does not expect. -/
def crash : Handler := .ofAction fun _ _ => throw (.crash ⟨"ValueError", some "crashed"⟩)

/-- Writes a line to the output and then one to the errors. -/
def both : Handler := succeeding fun _ streams => do
  writeLine streams.out "out"
  writeLine streams.err "err"

/-- Copies a line from its input to its output. -/
def line : Handler := succeeding fun _ streams => do
  write streams.out (← readWith (World.readLine streams.ins))

/-- Goes to a directory, whether it exists or not. -/
def cd : Handler := onOne fun _ _ argument => do
  let path ← pathOf argument
  setVariable Environment.set "cwd" (.string path.toText)

/-- Sets a variable that is not protected. -/
def set : Handler := onTwo fun _ key value => setVariable Environment.safeSet key (.string value)

/-- Deletes a variable that is not protected. -/
def unset : Handler := onOne fun _ _ key => onVariables (Environment.safeDelete key)

/-- Writes the value of a variable as a line. -/
def get : Handler := onOne fun _ streams key => do writeLine streams.out (← variableValue key)

/-- Adds a tree at a path, with the directories above it if asked to. -/
def adding (tree : Tree) : Handler := onOne fun invocation _ argument => do
  addTree (← pathOf argument) tree (invocation.hasAnyOption ["p", "parents"])

/-- Makes an empty file. -/
def touch : Handler := adding (.file [])

/-- Makes a directory. -/
def mkdir : Handler := adding .emptyDirectory

/-- Removes what is at a path. -/
def rm : Handler := onOne fun _ _ argument => do removeNode (← pathOf argument)

/-- Copies a file, or a directory if asked to. -/
def cp : Handler := onTwo fun invocation source destination => do
  let source ← pathOf source
  let destination ← pathOf destination
  carry .copy
    (FileSystem.copy source destination (invocation.hasAnyOption ["r", "recursive"]))
    source destination

/-- Moves what is at a path. -/
def mv : Handler := onTwo fun _ source destination => do
  let source ← pathOf source
  let destination ← pathOf destination
  carry .move (FileSystem.move source destination) source destination

/-- Writes the text of a file. -/
def cat : Handler := onOne fun _ streams argument => do
  let handle ← openFile (← pathOf argument) .read
  write streams.out (← readWith (World.readAll handle))

/-- The commands in the order of their names. -/
def all : List (Text × Handler) :=
  [("both", both), ("cat", cat), ("cd", cd), ("complain", complain), ("cp", cp), ("crash", crash),
    ("echo", echo), ("exit", exit), ("fail", fail), ("get", get), ("inspect", inspect),
    ("line", line), ("mkdir", mkdir), ("mv", mv), ("put", put), ("rm", rm), ("set", set),
    ("touch", touch), ("unset", unset)].map fun (name, handler) => (String.toList name, handler)

end Commands

end MemShell
