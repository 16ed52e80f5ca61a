import MemShell.Files.FileSystem
import MemShell.Proofs.Map.Assoc

/-!
# Well-formed trees

In a well-formed tree every directory has distinct entries, and every entry has a name that can
stand in a path. Then an entry is listed under a name exactly if it is found under that name, and a
list of names is looked up one name after the other.
-/

namespace MemShell

namespace Node

/-- A node whose directories, all the way down, have distinct entries with proper names. -/
inductive WellFormed : Node → Prop
  /-- A directory is well formed if its entries are. -/
  | directory {inode : Inode} {entries : Entries} (nodup : (Assoc.keys entries).Nodup)
      (valid : ∀ entry ∈ entries, ValidName entry.1)
      (inner : ∀ entry ∈ entries, WellFormed entry.2) : WellFormed (.directory inode entries)
  /-- A file is well formed. -/
  | file (inode : Inode) : WellFormed (.file inode)
  /-- A null file is well formed. -/
  | null (inode : Inode) : WellFormed (.null inode)

/-- The entries of a well-formed directory have distinct names. -/
theorem WellFormed.nodup_keys {inode : Inode} {entries : Entries}
    (h : WellFormed (.directory inode entries)) : (Assoc.keys entries).Nodup := by
  cases h with
  | directory nodup valid inner => exact nodup

/-- An entry of a well-formed directory has a proper name. -/
theorem WellFormed.validName {inode : Inode} {entries : Entries}
    (h : WellFormed (.directory inode entries)) {entry : Text × Node} (he : entry ∈ entries) :
    ValidName entry.1 := by
  cases h with
  | directory nodup valid inner => exact valid entry he

/-- An entry of a well-formed directory is well formed. -/
theorem WellFormed.entry {inode : Inode} {entries : Entries}
    (h : WellFormed (.directory inode entries)) {entry : Text × Node} (he : entry ∈ entries) :
    entry.2.WellFormed := by
  cases h with
  | directory nodup valid inner => exact inner entry he

/-- Names are looked up one after the other. -/
theorem find_append (node : Node) (front back : List Text) :
    node.find (front ++ back) = (node.find front).bind fun reached => reached.find back := by
  induction front generalizing node with
  | nil => rfl
  | cons name front ih =>
    cases node with
    | directory inode entries =>
      rw [List.cons_append, find, find]
      cases entries.lookup name with
      | none => rfl
      | some child => exact ih child
    | file inode => rfl
    | null inode => rfl

/-- Whatever lies in a well-formed tree is well formed. -/
theorem WellFormed.find {node reached : Node} (h : node.WellFormed) {names : List Text}
    (hfind : node.find names = some reached) : reached.WellFormed := by
  induction names generalizing node with
  | nil =>
    rw [Node.find, Option.some.injEq] at hfind
    rwa [← hfind]
  | cons name names ih =>
    cases node with
    | directory inode entries =>
      rw [Node.find] at hfind
      cases hlookup : entries.lookup name with
      | none => simp [hlookup] at hfind
      | some child =>
        rw [hlookup] at hfind
        exact ih (h.entry ((Assoc.lookup_eq_some_iff h.nodup_keys).1 hlookup)) hfind
    | file inode => simp [Node.find] at hfind
    | null inode => simp [Node.find] at hfind

/-- Names that lead somewhere in a well-formed tree are proper names. -/
theorem WellFormed.validName_of_find {node reached : Node} (h : node.WellFormed) {names : List Text}
    (hfind : node.find names = some reached) : ∀ name ∈ names, ValidName name := by
  induction names generalizing node with
  | nil => exact List.forall_mem_nil _
  | cons name names ih =>
    cases node with
    | directory inode entries =>
      rw [Node.find] at hfind
      cases hlookup : entries.lookup name with
      | none => simp [hlookup] at hfind
      | some child =>
        rw [hlookup] at hfind
        have hmem := (Assoc.lookup_eq_some_iff h.nodup_keys).1 hlookup
        exact List.forall_mem_cons.2 ⟨h.validName hmem, ih (h.entry hmem) hfind⟩
    | file inode => simp [Node.find] at hfind
    | null inode => simp [Node.find] at hfind

end Node

namespace FileSystem

variable {fs : FileSystem}

/-- A file system whose tree is well formed. -/
def WellFormed (fs : FileSystem) : Prop := fs.root.WellFormed

/-- Names lead to a directory. -/
def IsDirectory (fs : FileSystem) (names : List Text) : Prop :=
  ∃ inode entries, fs.find names = some (.directory inode entries)

/-- The root is a directory. -/
theorem isDirectory_root (fs : FileSystem) : fs.IsDirectory [] := ⟨fs.rootInode, fs.entries, rfl⟩

/-- A directory is found. -/
theorem IsDirectory.isSome_find {names : List Text} (h : fs.IsDirectory names) :
    (fs.find names).isSome := by
  obtain ⟨inode, entries, hfind⟩ := h
  rw [hfind]
  rfl

/-- Names lead to a directory if the node that they lead to is one. -/
theorem isDirectory_iff_kind {names : List Text} {node : Node} (h : fs.find names = some node) :
    fs.IsDirectory names ↔ node.kind = .directory := by
  rw [IsDirectory, h]
  cases node <;> simp [Node.kind]

/-- An entry of a directory is found below it. -/
theorem find_concat {names : List Text} {inode : Inode} {entries : Entries}
    (h : fs.find names = some (.directory inode entries)) (name : Text) :
    fs.find (names ++ [name]) = entries.lookup name := by
  rw [find, Node.find_append, ← find, h, Option.bind_some, Node.find]
  cases entries.lookup name <;> rfl

/-- What has something below it is a directory. -/
theorem isDirectory_of_find_concat {names : List Text} {name : Text} {node : Node}
    (h : fs.find (names ++ [name]) = some node) : fs.IsDirectory names := by
  rw [find, Node.find_append, ← find] at h
  obtain ⟨reached, hreached, hnode⟩ := Option.bind_eq_some_iff.1 h
  cases reached with
  | directory inode entries => exact ⟨inode, entries, hreached⟩
  | file inode => simp [Node.find] at hnode
  | null inode => simp [Node.find] at hnode

/-- The directory above a directory is one; the root is above itself. -/
theorem IsDirectory.dropLast {names : List Text} (h : fs.IsDirectory names) :
    fs.IsDirectory names.dropLast := by
  by_cases hnames : names = []
  · rw [hnames]
    exact fs.isDirectory_root
  · obtain ⟨inode, entries, hfind⟩ := h
    rw [← List.dropLast_concat_getLast hnames] at hfind
    exact isDirectory_of_find_concat hfind

/-- A directory is found at a path whether or not the path ends with a slash. -/
theorem get_eq_directory_iff {path : Path} {inode : Inode} {entries : Entries} :
    fs.get path = some (.directory inode entries) ↔
      fs.find path.parts = some (.directory inode entries) := by
  rw [get]
  cases fs.find path.parts with
  | none => rfl
  | some node => cases node <;> simp [Node.kind]

/-- Something is found at a path if its names lead there, to a directory if the path is one. -/
theorem isSome_get_iff {path : Path} :
    (fs.get path).isSome ↔
      (fs.find path.parts).isSome ∧ (path.isDirectory = true → fs.IsDirectory path.parts) := by
  rw [get, IsDirectory]
  cases fs.find path.parts with
  | none => simp
  | some node => cases node <;> cases path.isDirectory <;> simp [Node.kind]

end FileSystem

end MemShell
