import MemShell.Environment.Basic
import MemShell.Files.FileSystem

/-!
# The world of a command

What a command can see and change: the variables, the file system, the streams behind its handles,
and the console. Several handles may share a stream, and then they share its state.
-/

namespace MemShell

/-- The two channels of a console. -/
inductive Channel
  /-- The output. -/
  | out
  /-- The errors. -/
  | err
  deriving DecidableEq

/-- What has been written to a console. -/
structure Terminal where
  /-- The text of the output. -/
  out : Text
  /-- The text of the errors. -/
  err : Text
  deriving DecidableEq

namespace Terminal

/-- The console before anything was written. -/
def blank : Terminal := ⟨[], []⟩

/-- The console after a text has been written to a channel. -/
def write (terminal : Terminal) (text : Text) : Channel → Terminal
  | .out => { terminal with out := terminal.out ++ text }
  | .err => { terminal with err := terminal.err ++ text }

end Terminal

/-- What stands behind a handle. -/
inductive Endpoint
  /-- A stream. -/
  | stream (stream : Stream)
  /-- A channel of the console, which is written only. -/
  | console (channel : Channel)
  deriving DecidableEq

/-- The number of a endpoint. -/
abbrev Handle := Nat

/-- The streams of a command. -/
structure StreamSet where
  /-- Where the command reads. -/
  ins : Handle
  /-- Where the command writes. -/
  out : Handle
  /-- Where the command complains. -/
  err : Handle
  deriving DecidableEq

/-- What a command can see and change. -/
structure World where
  /-- The variables. -/
  environment : Environment
  /-- The file system. -/
  files : FileSystem
  /-- The endpoints by handle. -/
  endpoints : List Endpoint
  /-- The console. -/
  terminal : Terminal

namespace World

/-- The world without variables, files and endpoints, in which some keys are protected. -/
def blank (readOnlyKeys : List Text) : World := ⟨⟨.empty, readOnlyKeys⟩, .empty, [], .blank⟩

instance : Inhabited World := ⟨blank []⟩

/-- A new endpoint. -/
def newEndpoint (endpoint : Endpoint) (world : World) : Handle × World :=
  (world.endpoints.length, { world with endpoints := world.endpoints ++ [endpoint] })

/-- The world after the stream of a handle has changed, and the texts of files with it. -/
def putStream (handle : Handle) (stream : Stream) (disk : Disk) (world : World) : World :=
  { world with
    endpoints := world.endpoints.set handle (.stream stream)
    files := { world.files with disk := disk } }

/-- Writes to a handle; a handle that was not given out leads nowhere. -/
def write (handle : Handle) (text : Text) (world : World) : World :=
  match world.endpoints[handle]? with
  | some (.stream stream) =>
    let (stream, disk) := stream.write world.files.disk text
    world.putStream handle stream disk
  | some (.console channel) => { world with terminal := world.terminal.write text channel }
  | none => world

/-- Writes a line to a handle. -/
def writeLine (handle : Handle) (text : Text) (world : World) : World :=
  world.write handle (text ++ ['\n'])

/-- The text that can still be read from a handle. -/
def unread (handle : Handle) (world : World) : Text :=
  match world.endpoints[handle]? with
  | some (.stream stream) => stream.unread world.files.disk
  | _ => []

/-- Reads from a handle with a way of reading a stream. -/
def readWith (read : Disk → Stream → Text × Stream) (handle : Handle) (world : World) :
    Text × World :=
  match world.endpoints[handle]? with
  | some (.stream stream) =>
    let (text, stream) := read world.files.disk stream
    (text, world.putStream handle stream world.files.disk)
  | _ => ([], world)

/-- Reads a line from a handle. -/
def readLine (handle : Handle) (world : World) : Text × World :=
  world.readWith Stream.readLine handle

/-- Reads everything that is left from a handle. -/
def readAll (handle : Handle) (world : World) : Text × World :=
  world.readWith (fun disk stream => stream.read disk none) handle

end World

end MemShell
