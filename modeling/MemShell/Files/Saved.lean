import MemShell.Files.Visit
import MemShell.Json.Reader
import MemShell.Json.Display

/-!
# Saved trees

A tree is saved as a JSON object: its variant as a tag, the text of a file, and the entries of a
directory by name. The encoder listens to a visit and keeps the objects that are still open on a
stack; `Tree.toJson` is the same encoding by recursion.
-/

namespace MemShell

/-- Why a JSON value does not describe a tree. -/
inductive DecodeError
  /-- The text is no JSON. -/
  | invalidJson
  /-- The value is not an object. -/
  | notAnObject (value : Json)
  /-- The tag names no variant. -/
  | unknownKind (tag : Json)
  /-- The entries of a directory are not an object. -/
  | entriesNotAnObject
  /-- The contents of a file are not a string. -/
  | contentsNotAString
  /-- An entry has a name that no entry can have. -/
  | invalidName (name : Text)
  /-- The tree of a whole file system is not a directory. -/
  | rootNotADirectory
  /-- A directory cannot be made for another reason than a name, and the error stays what it is. -/
  | escaped (error : FileError)

/-- Why a text does not describe a file system. -/
inductive LoadError
  /-- It is no JSON, or its value does not describe one. -/
  | refused (error : DecodeError)
  /-- A whole number in it is not read. -/
  | numeral (error : NumeralError)

/-- The field that holds the tag of a node. -/
def tagField : Text := "type"

/-- The field that holds the entries of a directory. -/
def entriesField : Text := "nodes"

/-- The field that holds the text of a file. -/
def textField : Text := "contents"

/-- The variant that a tag names. -/
def Kind.ofTag : Json → Option Kind
  | .string tag =>
    if tag = Kind.directory.name then some .directory
    else if tag = Kind.file.name then some .file
    else if tag = Kind.null.name then some .null
    else none
  | _ => none

/-- The object of a node before anything is filed under it. -/
def Node.header (disk : Disk) (node : Node) : Json :=
  match node with
  | .directory .. => .object [(tagField, .string node.kind.name), (entriesField, .object [])]
  | .file inode =>
    .object [(tagField, .string node.kind.name), (textField, .string (disk.read inode))]
  | .null _ => .object [(tagField, .string node.kind.name)]

/-- An object with another one filed under a name in its entries. -/
def fileUnder (entry : Json) (name : Text) (child : Json) : Json :=
  match entry with
  | .object fields =>
    match fields.lookup entriesField with
    | some (.object entries) =>
      .object (Assoc.put entriesField (.object (Assoc.put name child entries)) fields)
    | _ => entry
  | _ => entry

/-- The encoder at work. -/
structure Encoder where
  /-- The objects of the nodes that are being visited, the innermost first. -/
  opened : List Json
  /-- The objects of the nodes whose visit is over and that are in no other. -/
  finished : List Json

namespace Encoder

/-- The encoder at the start. -/
def start : Encoder := ⟨[], []⟩

/-- One call of the visit: a node that is met is opened, and a node that is left is filed in the
object around it under the last name of its path. -/
def listen (disk : Disk) (encoder : Encoder) (call : Call) : Encoder :=
  match call.moment with
  | .before => encoder
  | .at => { encoder with opened := call.node.header disk :: encoder.opened }
  | .after =>
    match encoder.opened with
    | [] => encoder
    | [entry] => ⟨[], encoder.finished ++ [entry]⟩
    | entry :: outer :: rest =>
      { encoder with opened := fileUnder outer call.path.fileName entry :: rest }

end Encoder

/-- The encoder after a visit that meets a node at a path. -/
def Node.encoderAt (disk : Disk) (path : Path) (node : Node) : Encoder :=
  (node.visit path).foldl (Encoder.listen disk) .start

/-- The saved form of a node. -/
def Node.toJson (disk : Disk) (node : Node) : Json :=
  (node.encoderAt disk .root).finished.headD .null

namespace Tree

mutual

/-- The saved form of a tree by recursion. -/
def toJson : Tree → Json
  | directory entries =>
    .object [(tagField, .string Kind.directory.name),
      (entriesField, .object (Json.sortByName (entriesToJson entries)))]
  | file text => .object [(tagField, .string Kind.file.name), (textField, .string text)]
  | null => .object [(tagField, .string Kind.null.name)]

/-- The saved forms of the entries of a directory. -/
def entriesToJson : List (Text × Tree) → List (Text × Json)
  | [] => []
  | (name, tree) :: entries => (name, tree.toJson) :: entriesToJson entries

end

/-- Makes a directory of entries. The first name that no entry can have is an error. -/
def makeDirectory (entries : List (Text × Tree)) : Except FileError Tree :=
  match entries.find? fun entry => decide ¬ValidName entry.1 with
  | some (name, _) => .error (.invalidName name)
  | none => .ok (directory entries)

/-- The directory of entries that have been read. An error about a name is one of decoding. -/
def ofNamed (entries : List (Text × Tree)) : Except DecodeError Tree :=
  match makeDirectory entries with
  | .ok tree => .ok tree
  | .error (.invalidName name) => .error (.invalidName name)
  | .error error => .error (.escaped error)

/-- The text of a file in the fields of its object. -/
def contentsOf (fields : List (Text × Json)) : Except DecodeError Tree :=
  match fields.lookup textField with
  | none => .ok (file [])
  | some (.string text) => .ok (file text)
  | some _ => .error .contentsNotAString

mutual

/-- The tree that a saved form describes. -/
def ofJson : Json → Except DecodeError Tree
  | .object fields =>
    let tag := (fields.lookup tagField).getD .null
    match Kind.ofTag tag with
    | none => .error (.unknownKind tag)
    | some .directory => ofDirectoryFields fields
    | some .file => contentsOf fields
    | some .null => .ok null
  | value => .error (.notAnObject value)

/-- The directory whose object has the given fields. -/
def ofDirectoryFields : List (Text × Json) → Except DecodeError Tree
  | [] => .ok (directory [])
  | (name, value) :: fields =>
    if name = entriesField then ofEntriesValue value else ofDirectoryFields fields

/-- The directory with the entries of an object. -/
def ofEntriesValue : Json → Except DecodeError Tree
  | .object entries => do ofNamed (← ofEntryFields entries)
  | _ => .error .entriesNotAnObject

/-- The trees of the entries of an object. -/
def ofEntryFields : List (Text × Json) → Except DecodeError (List (Text × Tree))
  | [] => .ok []
  | (name, value) :: fields => do
    let tree ← ofJson value
    let entries ← ofEntryFields fields
    return (name, tree) :: entries

end

/-- The entries of a tree that is a directory. -/
def rootEntries : Tree → Except DecodeError (List (Text × Tree))
  | directory entries => .ok entries
  | _ => .error .rootNotADirectory

end Tree

namespace FileSystem

/-- A file system as JSON text. -/
def save (style : Json.Style) (fs : FileSystem) : Text := Json.write style (fs.root.toJson fs.disk)

/-- The entries of the root directory that a JSON text describes. -/
def readSaved (text : Text) : Except LoadError (List (Text × Tree)) :=
  match Json.parse text with
  | .error .malformed => .error (.refused .invalidJson)
  | .error (.numeral error) => .error (.numeral error)
  | .ok json =>
    match Tree.ofJson json >>= Tree.rootEntries with
    | .error error => .error (.refused error)
    | .ok entries => .ok entries

/-- The file system that a JSON text describes. -/
def load (text : Text) : Except LoadError FileSystem := do return ofEntries (← readSaved text)

end FileSystem

end MemShell
