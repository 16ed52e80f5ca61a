import MemShell.Files.Node
import MemShell.Stream.Basic

/-!
# File systems

A file system is a root directory and the disk that holds the texts of its files. Its operations
take paths; an operation that fails says why and leaves the state that it reached, so that "a
failing operation changes nothing" is a statement about them.
-/

namespace MemShell

/-- A way of carrying a node to another path. -/
inductive Transfer
  /-- The node stays, and a copy of it is made. -/
  | copy
  /-- The node itself goes. -/
  | move
  deriving DecidableEq

/-- The verb of a transfer. -/
def Transfer.name : Transfer → Text
  | copy => "copy"
  | move => "move"

/-- Why an operation on a file system fails. -/
inductive FileError
  /-- Nothing is there. -/
  | notFound (path : Path)
  /-- Something is there already. -/
  | alreadyExists (path : Path)
  /-- A directory stands where a file is needed. -/
  | notAFile (path : Path)
  /-- Something else stands where a directory is needed. -/
  | notADirectory (path : Path)
  /-- A node would be carried below itself. -/
  | intoItself (transfer : Transfer) (source : Path)
  /-- A text does not name an entry. -/
  | invalidName (name : Text)
  deriving DecidableEq

/-- An in-memory file system. -/
structure FileSystem where
  /-- The number of the root directory. -/
  rootInode : Inode
  /-- The entries of the root directory. -/
  entries : Entries
  /-- The texts of the files. -/
  disk : Disk

/-- An operation on a file system that may fail; what it did before it failed stays. -/
abbrev FileOp := EStateM FileError FileSystem

namespace FileSystem

/-- The file system in which the root directory is empty. -/
def empty : FileSystem := ⟨0, [], ⟨#[[]]⟩⟩

instance : Inhabited FileSystem := ⟨empty⟩

/-- The root directory. -/
def root (fs : FileSystem) : Node := .directory fs.rootInode fs.entries

/-- The node that a list of names leads to from the root. -/
def find (fs : FileSystem) (names : List Text) : Option Node := fs.root.find names

/-- The node at a path. A path with a slash at its end leads to directories only. -/
def get (fs : FileSystem) (path : Path) : Option Node :=
  match fs.find path.parts with
  | some node => if path.isDirectory && node.kind != .directory then none else some node
  | none => none

/-- Whether there is a node at a path. -/
def has (fs : FileSystem) (path : Path) : Bool := (fs.get path).isSome

/-- What is at a list of names: nothing, a directory, a file with its text, or a null file. -/
inductive View
  /-- Nothing. -/
  | absent
  /-- A directory. -/
  | directory
  /-- A file with its text. -/
  | file (text : Text)
  /-- A null file. -/
  | null
  deriving DecidableEq

/-- What a list of names leads to. -/
def look (fs : FileSystem) (names : List Text) : View :=
  match fs.find names with
  | none => .absent
  | some (.directory ..) => .directory
  | some (.file inode) => .file (fs.disk.read inode)
  | some (.null _) => .null

/-- The file system after the entries of one of its directories have been changed. -/
def changeAt (fs : FileSystem) (names : List Text) (change : Entries → Entries) : FileSystem :=
  { fs with entries := Node.changeAt change names fs.entries }

/-- The file system with a node under a path. -/
def link (fs : FileSystem) (path : Path) (node : Node) : FileSystem :=
  fs.changeAt path.parent.parts (Assoc.put path.fileName node)

/-- The file system without the node under a path. -/
def unlink (fs : FileSystem) (path : Path) : FileSystem :=
  fs.changeAt path.parent.parts (Assoc.erase path.fileName)

/-- A tree put on the disk, ready to be linked. -/
def install (tree : Tree) : FileOp Node := do
  let fs ← EStateM.get
  let (node, disk) := tree.install fs.disk
  set { fs with disk := disk }
  return node

/-- A file system whose root is a directory with the given contents, on the disk of this one. -/
def reroot (fs : FileSystem) (entries : List (Text × Tree)) : FileSystem :=
  let (inode, disk) := fs.disk.alloc []
  let (nodes, disk) := Tree.installEntries entries disk
  ⟨inode, nodes, disk⟩

/-- A file system whose root is a directory with the given contents. -/
def ofEntries (entries : List (Text × Tree)) : FileSystem :=
  reroot ⟨0, [], Disk.empty⟩ entries

/-- Makes sure that there is a directory at a path whose parent is a directory. -/
def ensureDirectory (path : Path) : FileOp Unit := do
  let fs ← EStateM.get
  match fs.get path with
  | some (.directory ..) => return ()
  | some _ => throw (.notADirectory path)
  | none =>
    let node ← install .emptyDirectory
    modify fun fs => fs.link path node

/-- Checks that a node of a variant may go to a path, and makes the missing directories above the
path if asked to. -/
def prepare (target : Path) (kind : Kind) (createParents : Bool) : FileOp Unit := do
  if target.isRoot then throw (.alreadyExists target)
  if target.isDirectory && kind != .directory then throw (.notADirectory target)
  if createParents then target.ancestors.reverse.forM ensureDirectory
  let fs ← EStateM.get
  match fs.get target.parent with
  | none => throw (.notFound target.parent)
  | some (.directory _ entries) =>
    if (entries.lookup target.fileName).isSome then throw (.alreadyExists target)
  | some _ => throw (.notADirectory target.parent)

/-- Adds a tree at a path, and gives the node that it has become. -/
def add (target : Path) (tree : Tree) (createParents : Bool) : FileOp Node := do
  prepare target tree.kind createParents
  let node ← install tree
  modify fun fs => fs.link target node
  return node

/-- Copies the node at a path, with everything below it, to another path. -/
def copy (source destination : Path) (recursive : Bool) : FileOp Unit := do
  if source.isAncestorOf destination then throw (.intoItself .copy source)
  let fs ← EStateM.get
  match fs.get source with
  | none => throw (.notFound source)
  | some node =>
    if node.kind == .directory && !recursive then throw (.notAFile source)
    discard <| add destination (node.contents fs.disk) false

/-- Moves the node at a path to another path. The node keeps its number. -/
def move (source destination : Path) : FileOp Unit := do
  if source.isAncestorOf destination then throw (.intoItself .move source)
  let fs ← EStateM.get
  match fs.get source with
  | none => throw (.notFound source)
  | some node =>
    prepare destination node.kind false
    modify fun fs => fs.link destination node
    modify fun fs => fs.unlink source

/-- The file system without the node at a path and everything below it. The root stays and loses its
entries, and a path that leads nowhere changes nothing. -/
def remove (fs : FileSystem) (target : Path) : FileSystem :=
  if target.isRoot then { fs with entries := [] }
  else
    match fs.get target with
    | some _ => fs.unlink target
    | none => fs

/-- The disk with an opened file as its mode leaves it. -/
def truncate (mode : OpenMode) (inode : Inode) (fs : FileSystem) : FileSystem :=
  match mode with
  | .write => { fs with disk := fs.disk.write inode [] }
  | _ => fs

/-- The position at which a mode starts in a file. -/
def startOf (mode : OpenMode) (text : Text) : Nat :=
  match mode with
  | .append => text.length
  | _ => 0

/-- Opens a file: a stream on it, and the file emptied where the mode says so. -/
def openNode (mode : OpenMode) : Node → FileOp Stream
  | .file inode => do
    modify (truncate mode inode)
    let fs ← EStateM.get
    return .file inode (startOf mode (fs.disk.read inode))
  | _ => return .null

/-- Opens the file at a path. A missing file is made first, unless it is only to be read. -/
def openAt (target : Path) (mode : OpenMode) : FileOp Stream := do
  let fs ← EStateM.get
  match fs.get target with
  | some (.directory ..) => throw (.notAFile target)
  | some node => openNode mode node
  | none =>
    if mode = .read then throw (.notFound target)
    let node ← add target (.file []) false
    openNode mode node

/-- Where each of several sources goes when they are carried to a destination: into it if it is a
directory, and for a single source to the destination itself if nothing is there yet. -/
def moveMappings (fs : FileSystem) (sources : List Path) (destination : Path) :
    Except FileError (List (Path × Path)) :=
  match sources with
  | [source] =>
    match fs.get destination with
    | some (.directory ..) => .ok [(source, destination.child source.fileName)]
    | some _ => .error (.alreadyExists destination)
    | none =>
      match fs.get destination.parent with
      | none => .error (.notFound destination.parent)
      | some (.directory ..) => .ok [(source, destination)]
      | some _ => .error (.notADirectory destination.parent)
  | _ =>
    match fs.get destination with
    | none => .error (.notFound destination)
    | some (.directory ..) =>
      .ok (sources.map fun source => (source, destination.child source.fileName))
    | some _ => .error (.notADirectory destination)

/-- Stores a tree under a name of the directory at a path, replacing what was there. -/
def putEntry (directory : Path) (name : Text) (tree : Tree) : FileOp Unit := do
  if ¬ValidName name then throw (.invalidName name)
  let node ← install tree
  modify fun fs => fs.changeAt directory.parts (Assoc.put name node)

/-- The file system without a name of the directory at a path; the empty name and the dot stand for
all names. -/
def eraseEntry (fs : FileSystem) (directory : Path) (name : Text) : FileSystem :=
  fs.changeAt directory.parts fun entries =>
    if name = [] ∨ name = ['.'] then [] else Assoc.erase name entries

/-- The node under a name of a directory. -/
def entry? (node : Node) (name : Text) : Option Node :=
  if ValidName name then node.entries.lookup name else none

end FileSystem

end MemShell
