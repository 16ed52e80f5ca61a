import MemShell.Json.Display
import MemShell.Log.Record

/-!
# Records as lines

A record is written as its timestamp, its level, its subsystem, its message and its context, with
single blanks between the parts that it has. The error behind it follows on lines of its own.
-/

namespace MemShell

/-- The terminal sequence that starts the colour of a level. -/
def Level.colour : Level → Text
  | debug => "\x1b[36m"
  | info => "\x1b[32m"
  | warning => "\x1b[33m"
  | error => "\x1b[31m"
  | critical => "\x1b[35m"

/-- The terminal sequence that ends a colour. -/
def colourEnd : Text := "\x1b[0m"

/-- A level in a column of eight characters. -/
def Level.column (coloured : Bool) (level : Level) : Text :=
  let text := Text.padRight 8 ' ' level.name
  if coloured then level.colour ++ text ++ colourEnd else text

namespace Record

/-- The context of a record in braces; an empty one is left out. -/
def contextParts (record : Record) : List Text :=
  match record.context.fields with
  | [] => []
  | fields =>
    ["\x7b" ++ Text.join " " (fields.map fun (name, value) => name ++ "=" ++ value.display) ++
      "\x7d"]

/-- The subsystem of a record in brackets, if it has one. -/
def subsystemParts (record : Record) : List Text :=
  match record.subsystem with
  | none => []
  | some subsystem => ["[" ++ subsystem ++ "]"]

/-- A record as text, without a line break at its end. -/
def render (coloured : Bool) (stamp : Text) (record : Record) : Text :=
  let parts := ["[" ++ stamp ++ "]", record.level.column coloured] ++ record.subsystemParts ++
    [record.message] ++ record.contextParts
  Text.join " " parts ++
    match record.failure with
    | none => []
    | some failure => '\n' :: failure.line

/-- The message of a record alone, with the error behind it on a line of its own. -/
def bare (record : Record) : Text :=
  match record.failure with
  | none => record.message
  | some failure =>
    record.message ++ (if record.message.getLast? = some '\n' then [] else ['\n']) ++ failure.line

end Record

end MemShell
