import MemShell.Fault.Crash
import MemShell.Map.Ordered

/-!
# Files of the host

The program reads its settings from a file of the machine that it runs on, and writes its log to
one. In the names of those files empty segments and single dots say nothing, and two dots lead back.
A place is the way to it from where names start: two dots at its front lead above that directory,
and an empty first segment is the root of the machine.
-/

namespace MemShell

/-- What a name of the host leads to. -/
inductive HostFile
  /-- There is no such file. -/
  | missing
  /-- There is a directory, shown under a name. -/
  | directory (shown : Text)
  /-- There is a file with a text. -/
  | text (text : Text)
  /-- There is a file that cannot be read, for a reason. -/
  | unreadable (reason : Text)
  /-- There is a file whose bytes are no text. -/
  | undecodable (crash : Crash)
  /-- It cannot be told whether there is a file, as for a name that is too long. -/
  | unreachable (crash : Crash)
  deriving DecidableEq

/-- The files of the host and the directories that have been made for them, by their places. -/
structure HostFiles where
  /-- The texts of the files. -/
  texts : OrderedMap (List Text) Text
  /-- The directories that have been made. -/
  directories : List (List Text)

namespace HostFiles

/-- The host before there is any file. -/
def empty : HostFiles := ⟨.empty, []⟩

/-- The segments of a name that say something. -/
def segments (name : Text) : List Text :=
  (Text.splitOn '/' name).filter fun segment => !segment.isEmpty && segment != ['.']

/-- The place where a name starts: the root for a name that starts with a slash. -/
def origin (name : Text) : List Text := if name.head? = some '/' then [[]] else []

/-- The name of a place. -/
def nameOf : List Text → Text
  | [] => "."
  | [[]] => "/"
  | place => Text.join "/" place

/-- A name without the segments that say nothing. Exactly two slashes at its start stay two. -/
def shown (name : Text) : Text :=
  let plain := nameOf (origin name ++ segments name)
  match name with
  | '/' :: '/' :: rest => if rest.head? = some '/' then plain else '/' :: plain
  | _ => plain

/-- The place above a place. The root is above itself, and above the places that lead up there is
always one more. -/
def above (place : List Text) : List Text :=
  match place.getLast? with
  | none => [['.', '.']]
  | some [] => place
  | some ['.', '.'] => place ++ [['.', '.']]
  | some _ => place.dropLast

/-- The place that a segment leads to. -/
def enter (place : List Text) (segment : Text) : List Text :=
  if segment = ['.', '.'] then above place else place ++ [segment]

/-- Whether there is a directory at a place: one that leads up from where names start, the root, one
that has been made, or one with files below it. -/
def isDirectory (files : HostFiles) (place : List Text) : Bool :=
  place.all (· = ['.', '.']) || place = [[]] || files.directories.contains place ||
    files.texts.keys.any fun key => place.isPrefixOf key && decide (place.length < key.length)

/-- Where segments lead from a place; nothing if the way leads through something else than a
directory. -/
def walk (files : HostFiles) (place : List Text) : List Text → Option (List Text)
  | [] => some place
  | segment :: rest =>
    if files.isDirectory place then walk files (enter place segment) rest else none

/-- What a name leads to. A text is read with its line breaks unified. -/
def find (files : HostFiles) (name : Text) : HostFile :=
  match walk files (origin name) (segments name) with
  | none => .missing
  | some place =>
    match files.texts.get? place with
    | some text => .text (Text.unifyBreaks text)
    | none => if files.isDirectory place then .directory (shown name) else .missing

/-- The host with a directory at a place. -/
def makeDirectory (files : HostFiles) (place : List Text) : HostFiles :=
  if files.isDirectory place then files
  else { files with directories := files.directories ++ [place] }

/-- The host with directories all along the way of segments from a place. -/
def makeWay (files : HostFiles) (place : List Text) : List Text → HostFiles
  | [] => files
  | segment :: rest => makeWay (files.makeDirectory (enter place segment)) (enter place segment) rest

/-- The host with the text of a file changed; a file that is missing is made with an empty text
first, and so are the directories on the way to it. -/
def update (files : HostFiles) (name : Text) (change : Text → Text) : HostFiles :=
  let way := segments name
  let place := way.foldl enter (origin name)
  let made := files.makeWay (origin name) way.dropLast
  { made with texts := made.texts.insert place (change ((made.texts.get? place).getD [])) }

/-- The host with a text at the end of a file. -/
def append (files : HostFiles) (name text : Text) : HostFiles := files.update name (· ++ text)

/-- The host with the files of a list of names and texts. -/
def ofList (pairs : List (Text × Text)) : HostFiles :=
  pairs.foldl (fun files (name, text) => files.update name fun _ => text) empty

end HostFiles

end MemShell
