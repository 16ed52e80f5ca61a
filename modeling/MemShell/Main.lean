import MemShell.Log.Timestamp
import MemShell.Program.Sessions
import Std.Time.DateTime.Timestamp

/-!
# The program

The command line of the shell. It reads the settings file and the keyboard, asks the clock, and
shows what the sessions leave; what they do is decided elsewhere.
-/

namespace MemShell.Console

/-- A text as a string. -/
def stringOf (text : Text) : String := String.ofList text

/-- The time of day as a timestamp. -/
def now : IO Text := do
  let moment ← Std.Time.Timestamp.now
  match Timestamp.ofMillis moment.toMillisecondsSinceUnixEpoch.toInt with
  | .ok text => return text
  | .error error => return error.message

/-- The file of a name. -/
def readHostFile (name : Text) : IO HostFile := do
  try
    match String.fromUTF8? (← IO.FS.readBinFile (stringOf name)) with
    | some text => return .text (Text.unifyBreaks text.toList)
    | none => return .undecodable ⟨"UnicodeDecodeError", some "the file is no UTF-8"⟩
  catch
    | .noFileOrDirectory .. => return .missing
    | .inappropriateType .. => return .directory (HostFiles.shown name)
    | .permissionDenied _ _ details => return .unreadable details
    | error => return .unreachable ⟨"OSError", some error.toString⟩

/-- Shows a crash that ends the program, and gives the exit code. -/
def showCrash (crash : Crash) : IO UInt32 := do
  IO.eprintln (stringOf (Failure.ofCrash crash).line)
  return 1

/-- Shows an error that ends the program, and gives the exit code. -/
def showTrouble : Trouble → IO UInt32
  | .mishap mishap => do
    IO.eprintln (stringOf mishap.fault.text)
    return 1
  | .crash crash => showCrash crash

/-- Adds a text at the end of the file at a place, and makes the directories above it. -/
def appendHostFile (place : List Text) (text : Text) : IO Unit := do
  IO.FS.createDirAll (stringOf (HostFiles.nameOf place.dropLast))
  IO.FS.withFile (stringOf (HostFiles.nameOf place)) .append fun file =>
    file.putStr (stringOf text)

/-- Carries over to the host what has been made and written. -/
def writeHostFiles (files : HostFiles) : IO Unit := do
  files.directories.forM fun place => IO.FS.createDirAll (stringOf (HostFiles.nameOf place))
  files.texts.entries.forM fun (place, text) => appendHostFile place text

/-- Shows what a shell has left, and gives the shell and the state of logging without it. -/
def flush (shell : Shell) (logging : Logging) : IO (Shell × Logging) := do
  let (out, shell, logging) := shell.flush (← now) logging
  let stdout ← IO.getStdout
  stdout.putStr (stringOf out)
  stdout.flush
  IO.eprint (stringOf logging.console)
  writeHostFiles logging.files
  return (shell, { logging with console := [], files := .empty })

/-- The exit code of a process for an exit code of the shell. -/
def processCode (code : Int) : UInt32 := (code % 256).toNat.toUInt32

/-- A line from the keyboard without its line break; nothing at the end of the input. -/
def readInput : IO (Option Input) := do
  let line := (← (← IO.getStdin).getLine).toList
  if line.isEmpty then return none
  return some (.line (if line.getLast? = some '\n' then line.dropLast else line))

/-- The session at the keyboard. -/
partial def converse (settings : Settings) (shell : Shell) (logging : Logging) : IO UInt32 := do
  let (shell, logging) ← flush (shell.prompted (Shell.prompt settings)) logging
  match ← readInput with
  | none =>
    discard <| flush shell.ended logging
    return processCode shell.lastExit
  | some input =>
    let (answered, escaped) := shell.answered input
    let (shell, logging) ← flush answered logging
    match escaped with
    | some crash => showCrash crash
    | none =>
      if shell.running then converse settings shell logging else return processCode shell.lastExit

/-- Runs the program in a way of running. -/
def runLaunch (launch : Launch) : IO UInt32 := do
  let onTerminal ← (← IO.getStdout).isTty
  let logging := (Logging.start onTerminal .empty).startSession launch.logOptions
  if launch.headless then
    match Session.headless launch.settings with
    | .error trouble => showTrouble trouble
    | .ok shell =>
      discard <| flush shell logging
      return 0
  else
    match Session.interactive launch.settings with
    | .error mishap => showTrouble (.mishap mishap)
    | .ok shell => converse launch.settings shell.begun logging

end MemShell.Console

open MemShell in
/-- Runs the program. -/
def main (arguments : List String) : IO UInt32 := do
  let arguments := arguments.map String.toList
  let file ← match Beginning.settingsFile? arguments with
    | none => pure HostFile.missing
    | some name => Console.readHostFile name
  match Beginning.ofArguments (fun _ => file) arguments with
  | .show text =>
    IO.print (Console.stringOf text)
    return 0
  | .refused =>
    IO.eprint (Console.stringOf (Beginning.ofLines Beginning.usageLines))
    return 2
  | .failed error =>
    IO.eprint (Console.stringOf error.complaint)
    return 1
  | .crashed crash => Console.showCrash crash
  | .launch launch => Console.runLaunch launch
