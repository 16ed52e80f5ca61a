import MemShell.Host.Files
import MemShell.Log.Handler

/-!
# Log sessions

Logging is started at a level and stopped again, and starting it twice does nothing. A start makes
the handlers of the session and attaches them to the channel that all parts of the program share:
one that keeps the records in a buffer, and one each for the console and for a file if the session
has them. A stop detaches them again. A record that reaches no handler is shown on the console as a
bare message if it is a warning or worse.
-/

namespace MemShell

/-- How logging is started. -/
structure LogOptions where
  /-- The rank of the least level that is captured. Rank zero decides nothing. -/
  least : Int
  /-- The file that records go to; an empty name stands for none. -/
  file : Option Text
  /-- Whether the console may show colours. -/
  colours : Bool
  /-- Whether records go to the console. -/
  console : Bool
  /-- How many records the buffer keeps. -/
  capacity : Int

/-- The options that hold unless others are given. -/
def LogOptions.usual : LogOptions := ⟨Level.info.rank, none, true, true, 10000⟩

/-- The name of the file that records go to, unless it is empty. -/
def LogOptions.target? (options : LogOptions) : Option Text :=
  options.file.filter fun name => !name.isEmpty

/-- The state of logging. -/
structure Logging where
  /-- Whether the output is a terminal, which shows colours. -/
  onTerminal : Bool
  /-- The handlers that have been made; the number of a handler is its place. -/
  made : List LogHandler
  /-- The channel that the channels of all parts of the program lead to. -/
  shared : LogChannel
  /-- Whether a session is running. -/
  running : Bool
  /-- The number of the handler that keeps the records of the session. -/
  recorder : Option Nat
  /-- The numbers of the handlers of the session. -/
  installed : List Nat
  /-- What has been written to the console. -/
  console : Text
  /-- The files of the host. -/
  files : HostFiles

namespace Logging

/-- Logging before anything has happened, among files that are there already. -/
def start (onTerminal : Bool) (files : HostFiles) : Logging :=
  ⟨onTerminal, [], .plain, false, none, [], [], files⟩

/-- Writes text to the console. -/
def print (text : Text) (logging : Logging) : Logging :=
  { logging with console := logging.console ++ text }

/-- Adds text at the end of a file, which is made if it is missing. -/
def appendTo (name text : Text) (logging : Logging) : Logging :=
  { logging with files := logging.files.append name text }

/-- Makes a handler of the session and attaches it to the shared channel. -/
def install (handler : LogHandler) (logging : Logging) : Logging :=
  { logging with
    made := logging.made ++ [handler]
    shared := logging.shared.attach logging.made.length
    installed := logging.installed ++ [logging.made.length] }

/-- Installs the handler that keeps the records. -/
def installRecorder (options : LogOptions) (logging : Logging) : Logging :=
  install ⟨options.least, .buffer (.empty options.capacity)⟩
    { logging with recorder := some logging.made.length, installed := [] }

/-- Installs the handler for the console if the session has one. -/
def installConsole (options : LogOptions) (logging : Logging) : Logging :=
  if options.console then
    logging.install ⟨options.least, .console (options.colours && logging.onTerminal)⟩
  else logging

/-- Installs the handler for the file if the session has one; the file is made if it is missing. -/
def installFile (options : LogOptions) (logging : Logging) : Logging :=
  match options.target? with
  | none => logging
  | some name => (logging.appendTo name []).install ⟨options.least, .file name⟩

/-- Starts a session unless one is running. -/
def startSession (options : LogOptions) (logging : Logging) : Logging :=
  if logging.running then logging
  else
    let opened := { logging with
      shared := { logging.shared with least := options.least, propagates := false } }
    let ready := ((opened.installRecorder options).installConsole options).installFile options
    { ready with running := true }

/-- Stops the running session. -/
def stopSession (logging : Logging) : Logging :=
  let detached := logging.installed.foldl LogChannel.detach logging.shared
  { logging with
    shared := { detached with least := 0, propagates := true }
    running := false
    recorder := none
    installed := [] }

/-- Passes a record to the handler with a number, which takes it if its level is high enough. -/
def handle (stamp : Text) (record : Record) (logging : Logging) (number : Nat) : Logging :=
  match logging.made[number]? with
  | none => logging
  | some handler =>
    if handler.least ≤ record.level.rank then
      match handler.outlet with
      | .buffer buffer =>
        { logging with
          made := logging.made.set number { handler with outlet := .buffer (buffer.emit record) } }
      | .console coloured => logging.print (record.render coloured stamp ++ ['\n'])
      | .file name => logging.appendTo name (record.render false stamp ++ ['\n'])
    else logging

/-- The way up of a record. Every part of the program has a channel of its own at the bottom, which
decides nothing and has no handlers, whenever the part has asked for it. -/
def way (logging : Logging) : List LogChannel := [.plain, logging.shared, .top]

/-- Shows the bare message of a record that reaches no handler if it is a warning or worse. -/
def lastResort (record : Record) (logging : Logging) : Logging :=
  if Level.warning ≤ record.level then logging.print (record.bare ++ ['\n']) else logging

/-- Logs a record under a timestamp. -/
def log (stamp : Text) (record : Record) (logging : Logging) : Logging :=
  if LogChannel.admits logging.way record.level then
    match LogChannel.reached logging.way with
    | [] => logging.lastResort record
    | numbers => numbers.foldl (handle stamp record) logging
  else logging

/-- The records that a question asks for; there are none outside a session. -/
def find (logging : Logging) (query : LogQuery) : List Record :=
  match logging.recorder.bind fun number => logging.made[number]? with
  | some ⟨_, .buffer buffer⟩ => buffer.find query
  | _ => []

end Logging

end MemShell
