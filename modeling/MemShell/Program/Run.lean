import MemShell.Program.Sessions

/-!
# Running the program

A whole run of the program on given inputs: what it writes, what it leaves in files, and its exit
code.
-/

namespace MemShell

/-- How a run of the program ends. -/
inductive Ending
  /-- With an exit code. -/
  | exit (code : Int)
  /-- Before it has begun, since it has shown a text about itself or has refused its arguments. -/
  | early (code : Nat)
  deriving DecidableEq

/-- What a run of the program leaves. -/
structure ProgramRun where
  /-- How it ends. -/
  ending : Ending
  /-- What it has written to the output. -/
  out : Text
  /-- What it has written to the errors. -/
  err : Text
  /-- The files of the host. -/
  files : HostFiles

namespace ProgramRun

/-- The run that a shell has come to the end of. -/
def ofShell (stamp : Text) (logging : Logging) (code : Int) (shell : Shell) : ProgramRun :=
  let (out, _, logging) := shell.flush stamp logging
  ⟨.exit code, out, logging.console, logging.files⟩

/-- A run with a way of running. -/
def ofLaunch (stamp : Text) (files : HostFiles) (inputs : List Input) (launch : Launch) :
    Except Trouble ProgramRun := do
  let logging := (Logging.start false files).startSession launch.logOptions
  if launch.headless then
    return ofShell stamp logging 0 (← Session.headless launch.settings)
  else
    let shell ← (Session.interactive launch.settings).mapError .mishap
    match shell.run (Shell.prompt launch.settings) inputs with
    | ⟨_, _, some crash⟩ => throw (.crash crash)
    | ⟨shell, _, none⟩ => return ofShell stamp logging shell.lastExit shell

/-- A run of the program with arguments, among files of the host, on inputs from the keyboard. All
records get one timestamp. -/
def ofArguments (stamp : Text) (files : HostFiles) (inputs : List Input) (arguments : List Text) :
    Except Trouble ProgramRun :=
  match Beginning.ofArguments files.find arguments with
  | .show text => .ok ⟨.early 0, text, [], files⟩
  | .refused => .ok ⟨.early 2, [], [], files⟩
  | .failed error => .ok ⟨.exit 1, [], error.complaint, files⟩
  | .crashed crash => .error (.crash crash)
  | .launch launch => ofLaunch stamp files inputs launch

end ProgramRun

end MemShell
