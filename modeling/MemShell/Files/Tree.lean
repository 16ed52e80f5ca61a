import MemShell.Path.Basic

/-!
# Trees of files

The contents of a directory, a file or a null file as a plain value: what is added to a file system,
what a copy takes along, and what is saved.
-/

namespace MemShell

/-- The variants of nodes. -/
inductive Kind
  /-- Holds named nodes. -/
  | directory
  /-- Holds a text. -/
  | file
  /-- Is always empty and discards what is written to it. -/
  | null
  deriving DecidableEq

/-- The name of a variant. -/
def Kind.name : Kind → Text
  | directory => "Directory"
  | file => "File"
  | null => "NullFile"

/-- A node with everything below it. The entries of a directory keep the order in which they were
added. -/
inductive Tree
  /-- A directory with its named entries. -/
  | directory (entries : List (Text × Tree))
  /-- A file with its text. -/
  | file (text : Text)
  /-- A null file. -/
  | null

namespace Tree

instance : Inhabited Tree := ⟨null⟩

/-- The directory without entries. -/
def emptyDirectory : Tree := directory []

/-- The variant of a tree. -/
def kind : Tree → Kind
  | directory _ => .directory
  | file _ => .file
  | null => .null

end Tree

end MemShell
