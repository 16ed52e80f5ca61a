import MemShell.Fault.Causes
import MemShell.Log.Session
import MemShell.Program.Arguments
import MemShell.Text.Case

/-!
# Launching the program

From the arguments to a way of running: the settings are read, and the level of the log is taken
from the arguments or else from the settings. An argument or a setting that makes no sense ends the
program before it has begun.
-/

namespace MemShell

/-- The version of the program. -/
def programVersion : Text := "1.0.0"

/-- A way of running. -/
structure Launch where
  /-- The settings. -/
  settings : Settings
  /-- How logging is started. -/
  logOptions : LogOptions
  /-- Whether a scripted session is run. -/
  headless : Bool

/-- What the program begins with. -/
inductive Beginning
  /-- A text to show, and nothing else to do. -/
  | show (text : Text)
  /-- Arguments that are refused. -/
  | refused
  /-- Settings that are refused. -/
  | failed (error : SettingsError)
  /-- An error while the settings were read that has nothing to do with them. -/
  | crashed (crash : Crash)
  /-- A way of running. -/
  | launch (launch : Launch)

namespace Beginning

/-- The lines that explain how to call the program. -/
def usageLines : List Text :=
  ["usage: shellsim [-h] [--config CONFIG] [--log-level LOG_LEVEL] [--headless]",
    "                [--version]"]

/-- The lines that explain the options. -/
def helpLines : List Text :=
  ["", "In-process shell simulator", "", "options:",
    "  -h, --help            show this help message and exit",
    "  --config CONFIG       path to a JSON configuration file",
    "  --log-level LOG_LEVEL",
    "                        minimum log level (DEBUG, INFO, WARNING, ERROR,",
    "                        CRITICAL)",
    "  --headless            run a scripted session and exit",
    "  --version             show program's version number and exit"]

/-- Lines as text. -/
def ofLines (lines : List Text) : Text := lines.flatMap (· ++ ['\n'])

/-- A text that is given and not empty. -/
def filled? : Option Text → Option Text
  | some (c :: rest) => some (c :: rest)
  | _ => none

/-- The file with settings that arguments name, if there is one to read. -/
def settingsFile? (arguments : List Text) : Option Text :=
  match Request.ofArguments arguments with
  | .run arguments => filled? arguments.config
  | _ => none

/-- The settings that arguments ask for. -/
def settings (find : Text → HostFile) (arguments : Arguments) :
    Except SettingsFailure Settings :=
  match filled? arguments.config with
  | none => .ok .builtIn
  | some name => Settings.ofHostFile name (find name)

/-- The least level that is logged. -/
def level (settings : Settings) (arguments : Arguments) : Except SettingsFailure Level :=
  let name := Text.upper ((filled? arguments.logLevel).getD settings.logLevel)
  match Level.ofName? name with
  | some level => .ok level
  | none => .error (.refused (.unknownLevel name))

/-- The way of running that arguments ask for. -/
def launch? (find : Text → HostFile) (arguments : Arguments) : Except SettingsFailure Launch := do
  let settings ← settings find arguments
  let level ← level settings arguments
  return {
    settings
    logOptions :=
      { LogOptions.usual with
        least := level.rank
        file := settings.logFile?
        console := settings.logsToConsole
        capacity := settings.maxLogEntries }
    headless := arguments.headless }

/-- What the program begins with, given its arguments. -/
def ofArguments (find : Text → HostFile) (arguments : List Text) : Beginning :=
  match Request.ofArguments arguments with
  | .showHelp => .show (ofLines (usageLines ++ helpLines))
  | .showVersion => .show (ofLines ["shellsim " ++ programVersion])
  | .refuse => .refused
  | .run arguments =>
    match launch? find arguments with
    | .ok way => .launch way
    | .error (.refused error) => .failed error
    | .error (.crash crash) => .crashed crash

end Beginning

/-- The complaint about settings that are refused. -/
def SettingsError.complaint (error : SettingsError) : Text :=
  "shellsim: " ++ error.fault.text ++ ['\n']

end MemShell
