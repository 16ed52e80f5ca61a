import MemShell.Files.Tree
import MemShell.Files.Disk
import MemShell.Map.Assoc

/-!
# Nodes

A node is a tree whose texts lie on the disk. It carries the numbers of itself and of everything
below it, so that moving it keeps every open stream on it alive, while a copy has numbers of its
own.
-/

namespace MemShell

/-- A node of a file system. -/
inductive Node
  /-- A directory with its named entries. -/
  | directory (inode : Inode) (entries : List (Text × Node))
  /-- A file, whose text the disk holds. -/
  | file (inode : Inode)
  /-- A null file. -/
  | null (inode : Inode)

/-- The named nodes of a directory, in the order in which they were added. -/
abbrev Entries := List (Text × Node)

namespace Node

instance : Inhabited Node := ⟨null 0⟩

/-- The number of a node. -/
def inode : Node → Inode
  | directory inode _ => inode
  | file inode => inode
  | null inode => inode

/-- The variant of a node. -/
def kind : Node → Kind
  | directory .. => .directory
  | file _ => .file
  | null _ => .null

/-- The entries of a node; only a directory has some. -/
def entries : Node → Entries
  | directory _ entries => entries
  | _ => []

mutual

/-- What a node holds, as a plain value. -/
def contents (disk : Disk) : Node → Tree
  | directory _ entries => .directory (contentsOfEntries disk entries)
  | file inode => .file (disk.read inode)
  | null _ => .null

/-- What the entries of a directory hold. -/
def contentsOfEntries (disk : Disk) : Entries → List (Text × Tree)
  | [] => []
  | (name, node) :: entries => (name, node.contents disk) :: contentsOfEntries disk entries

end

/-- The text that reading a node gives. -/
def text (disk : Disk) : Node → Text
  | file inode => disk.read inode
  | _ => []

/-- The node that a list of names leads to. -/
def find (node : Node) : List Text → Option Node
  | [] => some node
  | name :: names =>
    match node with
    | directory _ entries =>
      match entries.lookup name with
      | some child => child.find names
      | none => none
    | _ => none

/-- The entries after the entries of the directory that a list of names leads to have been changed;
nothing changes where the names lead elsewhere. -/
def changeAt (change : Entries → Entries) : List Text → Entries → Entries
  | [], entries => change entries
  | name :: names, entries =>
    match entries.lookup name with
    | some (directory inode inner) =>
      Assoc.put name (directory inode (changeAt change names inner)) entries
    | _ => entries

/-- The listing of a node under a name. -/
def listingName (node : Node) (name : Text) : Text :=
  match node with
  | directory .. => name ++ ['/']
  | _ => name

end Node

mutual

/-- A tree put on the disk: every node of it gets a number. -/
def Tree.install : Tree → Disk → Node × Disk
  | .directory entries, disk =>
    let (inode, disk) := disk.alloc []
    let (nodes, disk) := Tree.installEntries entries disk
    (.directory inode nodes, disk)
  | .file text, disk =>
    let (inode, disk) := disk.alloc text
    (.file inode, disk)
  | .null, disk =>
    let (inode, disk) := disk.alloc []
    (.null inode, disk)

/-- The entries of a directory put on the disk one after the other. -/
def Tree.installEntries : List (Text × Tree) → Disk → Entries × Disk
  | [], disk => ([], disk)
  | (name, tree) :: entries, disk =>
    let (node, disk) := tree.install disk
    let (nodes, disk) := Tree.installEntries entries disk
    ((name, node) :: nodes, disk)

end

/-- Putting a tree on the disk keeps its variant. -/
@[simp] theorem Tree.kind_install (tree : Tree) (disk : Disk) :
    (tree.install disk).1.kind = tree.kind := by
  cases tree <;> simp [Tree.install, Node.kind, Tree.kind]

end MemShell
