import MemShell.Files.Disk
import MemShell.Map.Slice
import MemShell.Text.Quoted

/-!
# Streams

A stream is read and written as text. A buffer hands out what was written to it in the same order; a
stream on a file is a position in the text of that file, where writing replaces what stands there
and extends the end, but inserts nothing; a stream on a null file is empty and swallows everything.
-/

namespace MemShell

/-- How a file is opened. -/
inductive OpenMode
  /-- From the start. -/
  | read
  /-- From the start, and what was there is dropped. -/
  | write
  /-- From the end. -/
  | append
  deriving DecidableEq

/-- Why a stream is not used as asked. -/
inductive StreamError
  /-- A stream was to start outside the text of its file. -/
  | pointerOutside (pointer : Int) (length : Nat)
  /-- Whether a negative number of characters is left was asked. -/
  | negativeCount
  /-- A mode was asked for by a letter that none has. -/
  | unknownMode (letter : Text)
  deriving DecidableEq

/-- The message of a stream error. -/
def StreamError.message : StreamError → Text
  | pointerOutside pointer length =>
    "Pointer " ++ Text.ofInt pointer ++ " is outside file of length " ++ Text.ofNat length ++ "."
  | negativeCount => "Count must be non-negative."
  | unknownMode letter => Text.quoted letter ++ " is not a valid OpenMode"

/-- The mode of a letter. -/
def OpenMode.ofText : Text → Except StreamError OpenMode
  | ['r'] => .ok .read
  | ['w'] => .ok .write
  | ['a'] => .ok .append
  | letter => .error (.unknownMode letter)

/-- A stream of text. -/
inductive Stream
  /-- Text in the order in which it was written. -/
  | buffer (unread : Text)
  /-- A position in the text of a file. -/
  | file (inode : Inode) (pointer : Nat)
  /-- A stream on a null file. -/
  | null
  deriving DecidableEq

/-- The number of characters up to and including the first line break, if there is one. -/
def lineLength (text : Text) : Option Int :=
  (text.findIdx? (· == '\n')).map fun index => (index : Int) + 1

/-- A text with another one written over it from a position on. -/
def overwrite (contents : Text) (pointer : Nat) (text : Text) : Text :=
  contents.take pointer ++ text ++ contents.drop (pointer + text.length)

namespace Stream

instance : Inhabited Stream := ⟨null⟩

/-- A stream on the text of a file from a position on. -/
def onFile (disk : Disk) (inode : Inode) (pointer : Int) : Except StreamError Stream :=
  if pointer < 0 ∨ pointer > (disk.read inode).length then
    .error (.pointerOutside pointer (disk.read inode).length)
  else .ok (file inode pointer.toNat)

/-- A stream on a null file from a position on. -/
def onNull (pointer : Int) : Except StreamError Stream :=
  if pointer = 0 then .ok null else .error (.pointerOutside pointer 0)

/-- The position of a stream in its file. -/
def pointer : Stream → Nat
  | file _ pointer => pointer
  | _ => 0

/-- The text that has not been read yet. -/
def unread (disk : Disk) : Stream → Text
  | buffer unread => unread
  | file inode pointer => (disk.read inode).drop pointer
  | null => []

/-- The stream after some characters have been read. -/
def advance (count : Nat) : Stream → Stream
  | buffer unread => buffer (unread.drop count)
  | file inode pointer => file inode (pointer + count)
  | null => null

/-- Whether at least a number of characters is left. -/
def has (disk : Disk) (stream : Stream) (count : Int) : Except StreamError Bool :=
  if count < 0 then .error .negativeCount
  else .ok (decide (count ≤ (stream.unread disk).length))

/-- What reading would give. -/
def peek (disk : Disk) (stream : Stream) (count : Option Int) : Text :=
  takeFirst (stream.unread disk) count

/-- The text that is read, and the stream after it. -/
def read (disk : Disk) (stream : Stream) (count : Option Int) : Text × Stream :=
  let text := stream.peek disk count
  (text, stream.advance text.length)

/-- What reading a line would give. -/
def peekLine (disk : Disk) (stream : Stream) : Text :=
  stream.peek disk (lineLength (stream.unread disk))

/-- The line that is read, with its line break, and the stream after it. -/
def readLine (disk : Disk) (stream : Stream) : Text × Stream :=
  stream.read disk (lineLength (stream.unread disk))

/-- The stream and the disk after a text has been written. -/
def write (disk : Disk) (stream : Stream) (text : Text) : Stream × Disk :=
  match stream with
  | buffer unread => (buffer (unread ++ text), disk)
  | file inode pointer =>
    let contents := overwrite (disk.read inode) pointer text
    (file inode (min (pointer + text.length) contents.length), disk.write inode contents)
  | null => (null, disk)

/-- The stream and the disk after a text and a line break have been written. -/
def writeLine (disk : Disk) (stream : Stream) (text : Text) : Stream × Disk :=
  stream.write disk (text ++ ['\n'])

end Stream

end MemShell
