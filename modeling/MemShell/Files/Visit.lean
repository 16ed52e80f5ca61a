import MemShell.Files.FileSystem
import MemShell.Json.Writer

/-!
# Visits

A visit walks over a node and everything below it, siblings in the order of their names. It calls
three functions on every node: one before, one at, and one after the visit of what is below.
-/

namespace MemShell

/-- The moments at which a visit calls a function on a node. -/
inductive Moment
  /-- Before the node is visited. -/
  | before
  /-- At the node. -/
  | at
  /-- After everything below the node. -/
  | after
  deriving DecidableEq

/-- A call of a visit. -/
structure Call where
  /-- When the call is made. -/
  moment : Moment
  /-- The path at which the node was met. -/
  path : Path
  /-- The node. -/
  node : Node

namespace Node

mutual

/-- The calls of a visit that meets a node at a path. -/
def visit (path : Path) (node : Node) : List Call :=
  match node with
  | directory inode entries =>
    [⟨.before, path, directory inode entries⟩, ⟨.at, path, directory inode entries⟩] ++
      (Json.sortByName (visitEntries path entries)).flatMap Prod.snd ++
      [⟨.after, path, directory inode entries⟩]
  | file inode => [⟨.before, path, file inode⟩, ⟨.at, path, file inode⟩, ⟨.after, path, file inode⟩]
  | null inode => [⟨.before, path, null inode⟩, ⟨.at, path, null inode⟩, ⟨.after, path, null inode⟩]

/-- The calls for each entry of a directory at a path. -/
def visitEntries (path : Path) (entries : Entries) : List (Text × List Call) :=
  match entries with
  | [] => []
  | (name, node) :: entries => (name, visit (path.child name) node) :: visitEntries path entries

end

/-- Every node of a visit with its path, a directory before what is in it. -/
def walk (path : Path) (node : Node) : List (Path × Node) :=
  ((node.visit path).filter (·.moment = .at)).map fun call => (call.path, call.node)

end Node

end MemShell
