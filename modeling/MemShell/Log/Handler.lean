import MemShell.Log.Buffer
import MemShell.Log.Format

/-!
# Handlers and channels

A handler takes the records of a level or above and keeps them in a buffer, shows them on the
console or writes them to a file. Records come to handlers through channels, which lead to each
other: a record enters at the bottom, goes up as long as the channels propagate, and reaches all
handlers on its way. The first channel on the way that decides on a level says whether the record is
let in at all.
-/

namespace MemShell

/-- What a handler does with its records. -/
inductive Outlet
  /-- Keeps them in a buffer. -/
  | buffer (buffer : LogBuffer)
  /-- Shows them on the console, in colours or without. -/
  | console (coloured : Bool)
  /-- Writes them to a file. -/
  | file (name : Text)

/-- A handler of records. -/
structure LogHandler where
  /-- The rank of the least level that it takes. -/
  least : Int
  /-- What it does with the records. -/
  outlet : Outlet

/-- A channel that records go through. -/
structure LogChannel where
  /-- The rank of the least level that it lets in. A channel of rank zero decides nothing. -/
  least : Int
  /-- The numbers of its handlers. -/
  handlers : List Nat
  /-- Whether its records go on to the channel above. -/
  propagates : Bool

namespace LogChannel

/-- A channel that decides nothing and has no handlers. -/
def plain : LogChannel := ⟨0, [], true⟩

/-- The channel above all others lets in warnings and worse. -/
def top : LogChannel := ⟨Level.warning.rank, [], true⟩

/-- The channel with a handler; one that it has already is not added again. -/
def attach (channel : LogChannel) (number : Nat) : LogChannel :=
  if number ∈ channel.handlers then channel
  else { channel with handlers := channel.handlers ++ [number] }

/-- The channel without a handler. -/
def detach (channel : LogChannel) (number : Nat) : LogChannel :=
  { channel with handlers := channel.handlers.erase number }

/-- The rank of the least level that is let in on a way up: the first channel that decides. -/
def threshold : List LogChannel → Int
  | [] => 0
  | channel :: above => if channel.least = 0 then threshold above else channel.least

/-- Whether a record of a level is let in on a way up. -/
def admits (way : List LogChannel) (level : Level) : Bool := threshold way ≤ level.rank

/-- The handlers that a record reaches on a way up. -/
def reached : List LogChannel → List Nat
  | [] => []
  | channel :: above => channel.handlers ++ if channel.propagates then reached above else []

end LogChannel

end MemShell
