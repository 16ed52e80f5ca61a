import MemShell.Fault.Crash
import MemShell.Json.Basic

/-!
# Log records

A record tells of one event: how serious it is, which subsystem it comes from, a message, a context
of named values, and the error behind it if there is one.
-/

namespace MemShell

/-- How serious a record is. -/
inductive Level
  /-- A detail of the work. -/
  | debug
  /-- A step of the work. -/
  | info
  /-- Something is wrong, and the work goes on. -/
  | warning
  /-- A piece of work has failed. -/
  | error
  /-- The work cannot go on. -/
  | critical
  deriving DecidableEq

namespace Level

/-- The levels in order. -/
def all : List Level := [debug, info, warning, error, critical]

/-- The name of a level. -/
def name : Level → Text
  | debug => "DEBUG"
  | info => "INFO"
  | warning => "WARNING"
  | error => "ERROR"
  | critical => "CRITICAL"

/-- The level of a name. -/
def ofName? (name : Text) : Option Level := all.find? fun level => level.name = name

/-- The rank of a level. -/
def rank : Level → Nat
  | debug => 10
  | info => 20
  | warning => 30
  | error => 40
  | critical => 50

/-- Levels are ordered by rank. -/
instance : LE Level := ⟨fun a b => a.rank ≤ b.rank⟩

instance (a b : Level) : Decidable (a ≤ b) := inferInstanceAs (Decidable (a.rank ≤ b.rank))

end Level

/-- The error behind a record. -/
inductive Failure
  /-- An error of a kind with a text. -/
  | error (kind text : Text)
  /-- An error was expected and there was none. -/
  | none

/-- A crash behind a record. Words stand in the place of a text that cannot be shown. -/
def Failure.ofCrash (crash : Crash) : Failure :=
  .error crash.kind (crash.text.getD "<exception str() failed>")

/-- An error on a line; an empty text is left out. -/
def Failure.line : Failure → Text
  | error kind [] => kind
  | error kind text => kind ++ ": " ++ text
  | none => "NoneType: None"

/-- One event as it is logged. -/
structure Record where
  /-- How serious the event is. -/
  level : Level
  /-- The part of the program that the event comes from. -/
  subsystem : Option Text
  /-- What happened. -/
  message : Text
  /-- Named values around the event, or whatever was given in their place. -/
  context : Json
  /-- The error behind the event. -/
  failure : Option Failure

namespace Record

/-- A record without an error behind it. -/
def plain (level : Level) (subsystem message : Text) (context : List (Text × Json)) : Record :=
  ⟨level, some subsystem, message, .object context, none⟩

/-- A record of a detail. -/
def detail (subsystem message : String) (context : List (String × Json)) : Record :=
  plain .debug subsystem message (context.map fun (name, value) => (name.toList, value))

end Record

end MemShell
