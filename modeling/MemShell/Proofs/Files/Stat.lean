import MemShell.Proofs.Files.WellFormed
import MemShell.Proofs.Path.Segments

/-!
# Variants and numbers of nodes

What names lead to, seen from outside: the variant and the number of the node, and the view that the
disk gives of it. A change of the entries of one directory is seen at and below the changed entry
and nowhere else. In a file system that is numbered no number is used twice, so a text that is
written for one list of names is seen there only.
-/

namespace MemShell

namespace Node

/-- The variant and the number of the node that names lead to. -/
def stat (node : Node) (names : List Text) : Option (Kind × Inode) :=
  (node.find names).map fun reached => (reached.kind, reached.inode)

@[simp] theorem stat_nil (node : Node) : node.stat [] = some (node.kind, node.inode) := rfl

/-- An entry of a directory is the first step below it. -/
theorem stat_directory_cons (inode : Inode) (entries : Entries) (name : Text)
    (names : List Text) :
    (directory inode entries).stat (name :: names) =
      (entries.lookup name).bind fun child => child.stat names := by
  rw [stat, find]
  cases entries.lookup name <;> rfl

/-- Names are looked up one after the other. -/
theorem stat_append (node : Node) (front back : List Text) :
    node.stat (front ++ back) = (node.find front).bind fun reached => reached.stat back := by
  rw [stat, find_append]
  cases node.find front <;> rfl

/-- A directory below keeps its place and its number when its entries are changed. -/
theorem find_changeAt {change : Entries → Entries} {names : List Text} {inode below : Inode}
    {entries inner : Entries}
    (h : (directory inode entries).find names = some (directory below inner)) :
    (directory inode (changeAt change names entries)).find names =
      some (directory below (change inner)) := by
  induction names generalizing inode entries with
  | nil =>
    cases h
    rfl
  | cons name names ih =>
    rw [find] at h
    cases hchild : entries.lookup name with
    | none => simp [hchild] at h
    | some child =>
      rw [hchild] at h
      cases child with
      | directory number deeper =>
        rw [changeAt, hchild, find, Assoc.lookup_put, if_pos rfl]
        exact ih h
      | file number | null number => cases names <;> cases h

/-- Beside a directory whose entries are changed, and above it, nothing else is seen. -/
theorem stat_changeAt_of_not_prefix (change : Entries → Entries) {names others : List Text}
    (h : ¬names <+: others) (inode : Inode) (entries : Entries) :
    (directory inode (changeAt change names entries)).stat others =
      (directory inode entries).stat others := by
  induction names generalizing others inode entries with
  | nil => exact absurd (List.nil_prefix) h
  | cons name names ih =>
    rw [changeAt]
    split
    · next below inner hchild =>
      cases others with
      | nil => rfl
      | cons other others =>
        rw [stat_directory_cons, stat_directory_cons, Assoc.lookup_put]
        by_cases hother : other = name
        · subst hother
          have hbelow : ¬names <+: others := fun hprefix =>
            h (List.cons_prefix_cons.2 ⟨rfl, hprefix⟩)
          rw [if_pos rfl, hchild]
          exact ih hbelow below inner
        · rw [if_neg hother]
    · rfl

end Node

namespace FileSystem

/-- The variant and the number of the node that names lead to from the root. -/
def stat (fs : FileSystem) (names : List Text) : Option (Kind × Inode) := fs.root.stat names

/-- Names lead to a directory if they lead to a node of this variant. -/
theorem isDirectory_iff_stat {fs : FileSystem} {names : List Text} :
    fs.IsDirectory names ↔ ∃ inode, fs.stat names = some (.directory, inode) := by
  rw [stat, Node.stat, IsDirectory, find]
  cases fs.root.find names with
  | none => simp
  | some node => cases node <;> simp [Node.kind]

/-- A change that replaces one entry of a directory, or takes it away, is seen at and below that
entry and nowhere else. -/
theorem stat_changeAt {fs : FileSystem} {names : List Text} (hdir : fs.IsDirectory names)
    {change : Entries → Entries} {name : Text} {replacement : Option Node}
    (hchange : ∀ entries other, (change entries).lookup other =
      if other = name then replacement else entries.lookup other) (others : List Text) :
    (fs.changeAt names change).stat others =
      if names ++ [name] <+: others then
        replacement.bind fun node => node.stat (others.drop (names ++ [name]).length)
      else fs.stat others := by
  by_cases hnames : names <+: others
  · obtain ⟨rest, rfl⟩ := hnames
    obtain ⟨inode, inner, hfind⟩ := hdir
    have hbelow : fs.stat (names ++ rest) = (Node.directory inode inner).stat rest := by
      rw [stat, Node.stat_append, ← find, hfind]
      rfl
    have hchanged : (fs.changeAt names change).stat (names ++ rest) =
        (Node.directory inode (change inner)).stat rest := by
      rw [stat, Node.stat_append, root, changeAt, Node.find_changeAt hfind]
      rfl
    rw [hchanged, hbelow]
    simp only [List.prefix_append_right_inj]
    cases rest with
    | nil => simp [Node.kind, Node.inode]
    | cons other rest =>
      rw [Node.stat_directory_cons, Node.stat_directory_cons, hchange]
      by_cases hother : other = name
      · simp [hother]
      · have hne : ¬name = other := fun heq => hother heq.symm
        simp [hother, hne]
  · have hname : ¬names ++ [name] <+: others := fun h =>
      hnames ((List.prefix_append names [name]).trans h)
    rw [if_neg hname]
    exact Node.stat_changeAt_of_not_prefix change hnames fs.rootInode fs.entries

/-- A path other than the root is its parent and its last name. -/
theorem parts_eq_concat {path : Path} (h : path.parts ≠ []) :
    path.parent.parts ++ [path.fileName] = path.parts := by
  rw [Path.parts_parent, Path.fileName, List.getLastD_eq_getLast?,
    List.getLast?_eq_some_getLast h]
  exact List.dropLast_concat_getLast h

/-- A node that is linked under a path is seen there, and nothing else changes. -/
theorem stat_link (fs : FileSystem) {path : Path} (hpath : path.parts ≠ [])
    (hdir : fs.IsDirectory path.parent.parts) (node : Node) (names : List Text) :
    (fs.link path node).stat names =
      if path.parts <+: names then node.stat (names.drop path.parts.length) else fs.stat names := by
  have hchange := stat_changeAt hdir
    (fun entries other => Assoc.lookup_put path.fileName other node entries) names
  rwa [parts_eq_concat hpath] at hchange

/-- At and below a path that is unlinked there is nothing, and nothing else changes. -/
theorem stat_unlink {fs : FileSystem} {path : Path} (hpath : path.parts ≠ [])
    (hdir : fs.IsDirectory path.parent.parts) (names : List Text) :
    (fs.unlink path).stat names = if path.parts <+: names then none else fs.stat names := by
  have hchange := stat_changeAt hdir
    (fun entries other => Assoc.lookup_erase path.fileName other entries) names
  rwa [parts_eq_concat hpath] at hchange

/-! ## Views -/

/-- What is seen of a node on a disk. -/
def View.ofStat (disk : Disk) : Option (Kind × Inode) → View
  | none => .absent
  | some (.directory, _) => .directory
  | some (.file, inode) => .file (disk.read inode)
  | some (.null, _) => .null

/-- What names lead to is seen by the variant and the number there. -/
theorem look_eq (fs : FileSystem) (names : List Text) :
    fs.look names = View.ofStat fs.disk (fs.stat names) := by
  rw [look, stat, Node.stat, find]
  cases fs.root.find names with
  | none => rfl
  | some node => cases node <;> rfl

/-- A node looks the same on disks that agree about its number. -/
theorem View.ofStat_congr {disk other : Disk} {found : Option (Kind × Inode)}
    (h : ∀ kind inode, found = some (kind, inode) → disk.read inode = other.read inode) :
    View.ofStat disk found = View.ofStat other found := by
  cases found with
  | none => rfl
  | some pair =>
    obtain ⟨kind, inode⟩ := pair
    cases kind with
    | directory | null => rfl
    | file => exact congrArg View.file (h .file inode rfl)

/-- The numbers of the nodes tell them apart. -/
structure Numbered (fs : FileSystem) : Prop where
  /-- A number in use has been given out. -/
  lt_next : ∀ {names kind inode}, fs.stat names = some (kind, inode) → inode < fs.disk.next
  /-- A number is met under one list of names only. -/
  eq_of_inode : ∀ {names others kind other inode}, fs.stat names = some (kind, inode) →
    fs.stat others = some (other, inode) → names = others

end FileSystem

end MemShell
