import MemShell.Fault.Crash
import MemShell.Fault.Causes
import MemShell.History.Basic
import MemShell.Log.Record
import MemShell.Shell.World

/-!
# Actions and handlers

An action is a piece of work on the world that may fail; what it did before it failed stays. It
leaves log records, each with the place among the errors on the console at which it was logged, and
it may ask the shell to stop. A handler is what a shell runs for a command: it sees the command, its
streams, the world and the memory of the shell, and none of the log.
-/

namespace MemShell

/-- Whether a fault is one that a shell reports: it is about files or variables, and its message is
a text. -/
def Fault.IsReported (fault : Fault) : Prop :=
  (fault.kind.family = .fileSystem ∨ fault.kind.family = .environment) ∧
    ∃ text, fault.message = .string text

/-- An error that a shell reports. -/
inductive Mishap
  /-- An operation on files fails. -/
  | file (error : FileError)
  /-- An operation on variables fails. -/
  | variable (error : VariableError)
  /-- Something else about files or variables fails, as when a tree cannot be restored. -/
  | other (fault : Fault) (reported : fault.IsReported)

/-- The fault of a mishap. -/
def Mishap.fault : Mishap → Fault
  | file error => error.fault
  | .variable error => error.fault
  | other fault _ => fault

/-- Why a handler fails. -/
inductive Trouble
  /-- With an error that the shell reports. -/
  | mishap (mishap : Mishap)
  /-- With an error that the shell does not expect. -/
  | crash (crash : Crash)

/-- What a shell keeps from command to command beside its world. -/
structure Memory where
  /-- The lines that were entered. -/
  history : History
  /-- The exit code of the last line. -/
  lastExit : Int
  /-- The commands that handlers have registered: the name of each, and the key of its handler. -/
  bindings : OrderedMap Text Text
  /-- What handlers keep for themselves. -/
  notes : Text

/-- The memory of a new shell with a history. -/
def Memory.create (history : History) : Memory := ⟨history, 0, .empty, []⟩

/-- A record as it was logged. -/
structure LogEntry where
  /-- The record. -/
  record : Record
  /-- How much text the errors on the console held. -/
  place : Nat

/-- How far a piece of work has come. -/
structure Progress where
  /-- The world. -/
  world : World
  /-- The memory of the shell. -/
  memory : Memory
  /-- Whether the shell was asked to stop. -/
  stops : Bool
  /-- What was logged. -/
  log : List LogEntry

/-- A piece of work on the world that may fail with an error of a type. -/
abbrev Action (ε : Type) := EStateM ε Progress

/-- What a handler leaves. -/
structure Reply where
  /-- The exit code, or the error that escaped. -/
  outcome : Except Trouble Int
  /-- How far the handler came. -/
  progress : Progress

/-- What a shell runs for a command. It may do anything to the world and to the memory of the shell,
so it can run further lines, register commands and keep notes for itself; it comes to an end, leaves
the keyboard to the shell and the ways of logging as they are, and fails with errors only that a
shell can recover from. -/
abbrev Handler := Invocation → StreamSet → Memory → World → Reply

namespace Progress

/-- The start of the first piece of work. -/
def start (world : World) : Progress := ⟨world, .create (.create [] none), false, []⟩

/-- The progress after a record has been logged. -/
def logged (progress : Progress) (record : Record) : Progress :=
  { progress with log := progress.log ++ [⟨record, progress.world.terminal.err.length⟩] }

end Progress

namespace Action

variable {ε δ α : Type}

/-- Work with its errors turned into others. -/
def mapError (f : ε → δ) (action : Action ε α) : Action δ α := fun progress =>
  match action progress with
  | .ok value progress => .ok value progress
  | .error error progress => .error (f error) progress

/-- Mishaps are troubles. -/
instance : MonadLift (Action Mishap) (Action Trouble) := ⟨mapError .mishap⟩

/-- The outcome of work as a value. -/
def attempt (action : Action ε α) : Action δ (Except ε α) := fun progress =>
  match action progress with
  | .ok value progress => .ok (.ok value) progress
  | .error error progress => .ok (.error error) progress

/-- The world as it is. -/
def world : Action ε World := do return (← EStateM.get).world

/-- The memory of the shell as it is. -/
def memory : Action ε Memory := do return (← EStateM.get).memory

/-- Changes the world. -/
def change (f : World → World) : Action ε Unit :=
  modify fun progress => { progress with world := f progress.world }

/-- Logs a record. -/
def log (record : Record) : Action ε Unit := modify (·.logged record)

/-- Logs records in order. -/
def logAll (records : List Record) : Action ε Unit := records.forM log

/-- Asks the shell to stop. -/
def stop : Action ε Unit := modify fun progress => { progress with stops := true }

/-- A new endpoint. -/
def openEndpoint (endpoint : Endpoint) : Action ε Handle := do
  let (handle, world) := (← world).newEndpoint endpoint
  change fun _ => world
  return handle

/-- Writes to a handle. -/
def write (handle : Handle) (text : Text) : Action ε Unit := change (World.write handle text)

/-- Writes a line to a handle. -/
def writeLine (handle : Handle) (text : Text) : Action ε Unit :=
  change (World.writeLine handle text)

/-- Reads from the world. -/
def readWith (read : World → Text × World) : Action ε Text := do
  let (text, world) := read (← world)
  change fun _ => world
  return text

/-- An operation on the file system. -/
def onFiles (op : FileOp α) : Action Mishap α := fun progress =>
  match op.run progress.world.files with
  | .ok value files => .ok value { progress with world := { progress.world with files := files } }
  | .error error files =>
    .error (.file error) { progress with world := { progress.world with files := files } }

/-- An operation on the variables. -/
def onVariables (op : VariableOp α) : Action Mishap α := fun progress =>
  match op.run progress.world.environment with
  | .ok value environment =>
    .ok value { progress with world := { progress.world with environment := environment } }
  | .error error environment =>
    .error (.variable error)
      { progress with world := { progress.world with environment := environment } }

/-- The value of a variable that has to be set. -/
def variableValue (key : Text) : Action Mishap Text := do
  match (← world).environment.get key with
  | .ok value => return value
  | .error error => throw (.variable error)

end Action

namespace Handler

/-- The handler that performs an action. -/
def ofAction (action : Invocation → StreamSet → Action Trouble Int) : Handler :=
  fun invocation streams memory world =>
    match (action invocation streams).run ⟨world, memory, false, []⟩ with
    | .ok code progress => ⟨.ok code, progress⟩
    | .error trouble progress => ⟨.error trouble, progress⟩

/-- Runs a handler as a part of more work, and gives its outcome. -/
def run {ε : Type} (handler : Handler) (invocation : Invocation) (streams : StreamSet) :
    Action ε (Except Trouble Int) := fun before =>
  let reply := handler invocation streams before.memory before.world
  .ok reply.outcome
    { reply.progress with
      stops := before.stops || reply.progress.stops
      log := before.log ++ reply.progress.log }

end Handler

end MemShell
