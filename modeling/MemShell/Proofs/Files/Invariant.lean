import MemShell.Proofs.Files.WellFormed

/-!
# Operations keep trees well formed

A file system whose tree is well formed has a well-formed tree after every operation, whether the
operation succeeds or fails. Trees that are put on the disk or read from it keep their names, an
entry is stored under the last name of a path other than the root, and storing replaces what has the
same name.
-/

namespace MemShell

/-- A tree whose directories, all the way down, have distinct entries with proper names. -/
inductive Tree.WellFormed : Tree → Prop
  /-- A directory is well formed if its entries are. -/
  | directory {entries : List (Text × Tree)} (nodup : (Assoc.keys entries).Nodup)
      (valid : ∀ entry ∈ entries, ValidName entry.1)
      (inner : ∀ entry ∈ entries, WellFormed entry.2) : WellFormed (.directory entries)
  /-- A file is well formed. -/
  | file (text : Text) : WellFormed (.file text)
  /-- A null file is well formed. -/
  | null : WellFormed .null

namespace Tree

/-- The empty directory is well formed. -/
theorem wellFormed_emptyDirectory : emptyDirectory.WellFormed :=
  .directory List.nodup_nil (fun _ h => absurd h List.not_mem_nil)
    (fun _ h => absurd h List.not_mem_nil)

/-- Putting entries on the disk keeps their names. -/
theorem keys_installEntries (entries : List (Text × Tree)) (disk : Disk) :
    Assoc.keys (installEntries entries disk).1 = Assoc.keys entries := by
  induction entries generalizing disk with
  | nil => rw [installEntries]; rfl
  | cons entry entries ih =>
    obtain ⟨name, tree⟩ := entry
    rw [installEntries]
    exact congrArg (name :: ·) (ih _)

/-- Every node that entries become on the disk comes from one of them. -/
theorem exists_of_mem_installEntries {entries : List (Text × Tree)} {disk : Disk}
    {entry : Text × Node} (h : entry ∈ (installEntries entries disk).1) :
    ∃ tree from_, (entry.1, tree) ∈ entries ∧ entry.2 = (tree.install from_).1 := by
  induction entries generalizing disk with
  | nil =>
    rw [installEntries] at h
    exact absurd h List.not_mem_nil
  | cons first entries ih =>
    obtain ⟨name, tree⟩ := first
    rw [installEntries] at h
    rcases List.mem_cons.1 h with rfl | h
    · exact ⟨tree, disk, List.mem_cons_self, rfl⟩
    · obtain ⟨tree, from_, hmem, hnode⟩ := ih h
      exact ⟨tree, from_, List.mem_cons_of_mem _ hmem, hnode⟩

/-- A well-formed tree becomes a well-formed node. -/
theorem WellFormed.install {tree : Tree} (h : tree.WellFormed) (disk : Disk) :
    (tree.install disk).1.WellFormed := by
  induction h generalizing disk with
  | directory nodup valid inner ih =>
    rw [Tree.install]
    refine .directory ?_ ?_ ?_
    · rw [keys_installEntries]
      exact nodup
    · intro entry hentry
      obtain ⟨tree, from_, hmem, -⟩ := exists_of_mem_installEntries hentry
      exact valid _ hmem
    · intro entry hentry
      obtain ⟨tree, from_, hmem, hnode⟩ := exists_of_mem_installEntries hentry
      rw [hnode]
      exact ih _ hmem from_
  | file text => rw [Tree.install]; exact .file _
  | null => rw [Tree.install]; exact .null _

end Tree

namespace Node

/-- The contents of entries are the contents of their nodes. -/
theorem contentsOfEntries_eq (disk : Disk) (entries : Entries) :
    contentsOfEntries disk entries = entries.map fun entry => (entry.1, entry.2.contents disk) := by
  induction entries with
  | nil => rw [contentsOfEntries]; rfl
  | cons entry entries ih =>
    obtain ⟨name, node⟩ := entry
    rw [contentsOfEntries, ih]
    rfl

/-- A well-formed node has well-formed contents. -/
theorem WellFormed.contents {node : Node} (h : node.WellFormed) (disk : Disk) :
    (node.contents disk).WellFormed := by
  induction h with
  | @directory inode entries nodup valid inner ih =>
    rw [Node.contents, contentsOfEntries_eq]
    refine .directory ?_ ?_ ?_
    · rw [Assoc.keys_map fun entry : Text × Node => entry.2.contents disk]
      exact nodup
    · exact List.forall_mem_map.2 valid
    · exact List.forall_mem_map.2 ih
  | file inode => rw [Node.contents]; exact .file _
  | null inode => rw [Node.contents]; exact .null

/-- A directory stays well formed when an entry is stored in it. -/
theorem WellFormed.put {inode : Inode} {entries : Entries}
    (h : WellFormed (.directory inode entries)) {name : Text} (hname : ValidName name) {node : Node}
    (hnode : node.WellFormed) : WellFormed (.directory inode (Assoc.put name node entries)) := by
  refine .directory (Assoc.nodup_keys_put h.nodup_keys) ?_ ?_
  · intro entry hentry
    rcases Assoc.mem_put hentry with rfl | hentry
    · exact hname
    · exact h.validName hentry
  · intro entry hentry
    rcases Assoc.mem_put hentry with rfl | hentry
    · exact hnode
    · exact h.entry hentry

/-- A directory stays well formed when an entry is taken out of it. -/
theorem WellFormed.erase {inode : Inode} {entries : Entries}
    (h : WellFormed (.directory inode entries)) (name : Text) :
    WellFormed (.directory inode (Assoc.erase name entries)) :=
  .directory (Assoc.nodup_keys_erase h.nodup_keys)
    (fun _ hentry => h.validName ((List.mem_filter.1 hentry).1))
    (fun _ hentry => h.entry ((List.mem_filter.1 hentry).1))

/-- A directory stays well formed when one below it is changed in a way that keeps directories well
formed. -/
theorem WellFormed.changeAt {change : Entries → Entries}
    (hchange : ∀ inode entries, WellFormed (.directory inode entries) →
      WellFormed (.directory inode (change entries)))
    (names : List Text) {inode : Inode} {entries : Entries}
    (h : WellFormed (.directory inode entries)) :
    WellFormed (.directory inode (Node.changeAt change names entries)) := by
  induction names generalizing inode entries with
  | nil => exact hchange inode entries h
  | cons name names ih =>
    rw [Node.changeAt]
    split
    · next below inner hlookup =>
      have hmem := (Assoc.lookup_eq_some_iff h.nodup_keys).1 hlookup
      exact h.put (h.validName hmem) (ih (h.entry hmem))
    · exact h

end Node

/-! ## Operations -/

namespace FileOp

variable {α β : Type} {invariant : FileSystem → Prop} {result : α → Prop}

/-- An operation keeps a property of file systems, whether it succeeds or fails, and what it gives
when it succeeds has a property as well. -/
def Keeps (invariant : FileSystem → Prop) (op : FileOp α) (result : α → Prop) : Prop :=
  ∀ fs, invariant fs →
    match op fs with
    | .ok value after => invariant after ∧ result value
    | .error _ after => invariant after

/-- Giving a value changes nothing. -/
theorem keeps_pure {value : α} (h : result value) : Keeps invariant (pure value) result :=
  fun _ hfs => ⟨hfs, h⟩

/-- Failing changes nothing. -/
theorem keeps_throw (error : FileError) : Keeps invariant (throw error) result :=
  fun _ hfs => hfs

/-- The file system that is read has the property that is kept. -/
theorem keeps_get : Keeps invariant EStateM.get invariant := fun _ hfs => ⟨hfs, hfs⟩

/-- A change keeps what it keeps of every file system. -/
theorem keeps_modify {change : FileSystem → FileSystem}
    (h : ∀ fs, invariant fs → invariant (change fs)) {result : PUnit → Prop} (hresult : result ⟨⟩) :
    Keeps invariant (modify change) result :=
  fun fs hfs => ⟨h fs hfs, hresult⟩

/-- One operation after the other keeps what both keep. -/
theorem Keeps.bind {op : FileOp α} {next : α → FileOp β} {last : β → Prop}
    (h : Keeps invariant op result)
    (hnext : ∀ value, result value → Keeps invariant (next value) last) :
    Keeps invariant (op >>= next) last := by
  intro fs hfs
  have hop := h fs hfs
  change match EStateM.bind op next fs with
    | .ok value after => invariant after ∧ last value
    | .error _ after => invariant after
  rw [EStateM.bind]
  cases hrun : op fs with
  | ok value after =>
    rw [hrun] at hop
    exact hnext value hop.2 after hop.1
  | error error after =>
    rw [hrun] at hop
    exact hop

/-- A check that fails or goes on keeps what is kept by going on. -/
theorem keeps_throw_or {c : Prop} [Decidable c] {error : FileError} {next : PUnit → FileOp α}
    (h : ¬c → Keeps invariant (next ⟨⟩) result) :
    Keeps invariant (if c then throw error >>= next else next ⟨⟩) result := by
  have hthrow : Keeps invariant (throw error : FileOp PUnit) fun _ => False := keeps_throw error
  split
  · exact hthrow.bind fun _ hfalse => hfalse.elim
  · next hc => exact h hc

/-- An operation that is left out or done before another keeps what both keep. -/
theorem keeps_when {c : Prop} [Decidable c] {next : PUnit → FileOp α}
    {first : FileOp PUnit} (hfirst : Keeps invariant first fun _ => True)
    (h : Keeps invariant (next ⟨⟩) result) :
    Keeps invariant (if c then first >>= next else next ⟨⟩) result := by
  split
  · exact hfirst.bind fun _ _ => h
  · exact h

/-- Dropping what an operation gives keeps what the operation keeps. -/
theorem Keeps.discard {op : FileOp α} (h : Keeps invariant op result) :
    Keeps invariant (Functor.discard op) fun _ => True := by
  intro fs hfs
  have hop := h fs hfs
  have hdiscard : Functor.discard op = EStateM.map (fun _ => PUnit.unit) op := rfl
  rw [hdiscard, EStateM.map]
  cases hrun : op fs with
  | ok value after =>
    rw [hrun] at hop
    exact ⟨hop.1, trivial⟩
  | error error after =>
    rw [hrun] at hop
    exact hop

/-- An operation for each of several paths keeps what each of them keeps. -/
theorem keeps_forM {op : Path → FileOp PUnit} {paths : List Path}
    (h : ∀ path ∈ paths, Keeps invariant (op path) fun _ => True) :
    Keeps invariant (paths.forM op) fun _ => True := by
  induction paths with
  | nil => exact keeps_pure trivial
  | cons path paths ih =>
    rw [List.forall_mem_cons] at h
    exact h.1.bind fun _ _ => ih h.2

end FileOp

namespace FileSystem

open FileOp

/-- A file system stays well formed when entries of its directories are changed in a way that keeps
directories well formed. -/
theorem WellFormed.changeAt {fs : FileSystem} (h : fs.WellFormed) (names : List Text)
    {change : Entries → Entries}
    (hchange : ∀ inode entries, Node.WellFormed (.directory inode entries) →
      Node.WellFormed (.directory inode (change entries))) :
    (fs.changeAt names change).WellFormed :=
  Node.WellFormed.changeAt hchange names h

/-- The last name of a path other than the root is a proper name. -/
theorem validName_fileName {path : Path} (h : path.parts ≠ []) : ValidName path.fileName := by
  rw [Path.fileName, List.getLastD_eq_getLast?, List.getLast?_eq_some_getLast h]
  exact path.valid _ (List.getLast_mem h)

/-- A file system stays well formed when a node is linked under a path other than the root. -/
theorem WellFormed.link {fs : FileSystem} (h : fs.WellFormed) {path : Path}
    (hpath : path.parts ≠ []) {node : Node} (hnode : node.WellFormed) :
    (fs.link path node).WellFormed :=
  h.changeAt _ fun _ _ hentries => hentries.put (validName_fileName hpath) hnode

/-- A file system stays well formed when the node under a path is unlinked. -/
theorem WellFormed.unlink {fs : FileSystem} (h : fs.WellFormed) (path : Path) :
    (fs.unlink path).WellFormed :=
  h.changeAt _ fun _ _ hentries => hentries.erase path.fileName

/-- What a well-formed file system has at a path is well formed. -/
theorem WellFormed.get {fs : FileSystem} (h : fs.WellFormed) {path : Path} {node : Node}
    (hget : fs.get path = some node) : node.WellFormed := by
  rw [FileSystem.get] at hget
  split at hget
  · next found hfind =>
    split at hget
    · cases hget
    · cases hget
      exact Node.WellFormed.find h hfind
  · cases hget

/-- A well-formed tree is put on the disk as a well-formed node. -/
theorem keeps_install {tree : Tree} (h : tree.WellFormed) :
    Keeps WellFormed (install tree) Node.WellFormed :=
  fun fs hfs => ⟨hfs, h.install fs.disk⟩

/-- The root is always found. -/
theorem ne_nil_of_get_eq_none {fs : FileSystem} {path : Path} (h : fs.get path = none) :
    path.parts ≠ [] := by
  intro hroot
  have hfind : fs.find path.parts = some (.directory fs.rootInode fs.entries) := by
    rw [hroot]
    rfl
  rw [get_eq_directory_iff.2 hfind] at h
  cases h

/-- Making sure of a directory keeps file systems well formed. -/
theorem keeps_ensureDirectory (path : Path) :
    Keeps WellFormed (ensureDirectory path) fun _ => True := by
  refine keeps_get.bind fun fs hfs => ?_
  cases hget : fs.get path with
  | some node =>
    cases node with
    | directory inode entries => exact keeps_pure trivial
    | file inode | null inode => exact keeps_throw _
  | none =>
    refine (keeps_install Tree.wellFormed_emptyDirectory).bind fun node hnode => ?_
    exact keeps_modify (fun fs hfs => hfs.link (ne_nil_of_get_eq_none hget) hnode) trivial

/-- Preparing a path keeps file systems well formed, and succeeds only for a path other than the
root. -/
theorem keeps_prepare (target : Path) (kind : Kind) (createParents : Bool) :
    Keeps WellFormed (prepare target kind createParents) fun _ => target.parts ≠ [] := by
  unfold prepare
  dsimp only
  refine keeps_throw_or fun hroot => keeps_throw_or fun _ => ?_
  have hparts : target.parts ≠ [] := by simpa [Path.isRoot] using hroot
  refine keeps_when (keeps_forM fun path _ => keeps_ensureDirectory path) ?_
  refine keeps_get.bind fun fs _ => ?_
  split
  · exact keeps_throw _
  · split
    · exact keeps_throw _
    · exact keeps_pure hparts
  · exact keeps_throw _

/-- Adding a well-formed tree keeps file systems well formed. -/
theorem keeps_add (target : Path) {tree : Tree} (h : tree.WellFormed) (createParents : Bool) :
    Keeps WellFormed (add target tree createParents) Node.WellFormed := by
  refine (keeps_prepare target tree.kind createParents).bind fun _ hparts => ?_
  refine (keeps_install h).bind fun node hnode => ?_
  have hlink : Keeps WellFormed (modify fun fs => fs.link target node) fun _ => True :=
    keeps_modify (fun fs hfs => hfs.link hparts hnode) trivial
  exact hlink.bind fun _ _ => keeps_pure hnode

/-- Copying keeps file systems well formed. -/
theorem keeps_copy (source destination : Path) (recursive : Bool) :
    Keeps WellFormed (copy source destination recursive) fun _ => True := by
  unfold copy
  dsimp only
  refine keeps_throw_or fun _ => keeps_get.bind fun fs hfs => ?_
  split
  · exact keeps_throw _
  · next node hget =>
    refine keeps_throw_or fun _ => ?_
    exact (keeps_add destination ((hfs.get hget).contents fs.disk) false).discard

/-- Moving keeps file systems well formed. -/
theorem keeps_move (source destination : Path) :
    Keeps WellFormed (move source destination) fun _ => True := by
  unfold move
  dsimp only
  refine keeps_throw_or fun _ => keeps_get.bind fun fs hfs => ?_
  split
  · exact keeps_throw _
  · next node hget =>
    refine (keeps_prepare destination node.kind false).bind fun _ hparts => ?_
    have hlink : Keeps WellFormed (modify fun fs => fs.link destination node) fun _ => True :=
      keeps_modify (fun fs hlinked => hlinked.link hparts (hfs.get hget)) trivial
    exact hlink.bind fun _ _ => keeps_modify (fun fs hlinked => hlinked.unlink source) trivial

/-- The empty directory is well formed. -/
theorem wellFormed_directory_nil (inode : Inode) : Node.WellFormed (.directory inode []) :=
  .directory List.nodup_nil (fun _ h => absurd h List.not_mem_nil)
    (fun _ h => absurd h List.not_mem_nil)

/-- A file system stays well formed when a node is removed. -/
theorem WellFormed.remove {fs : FileSystem} (h : fs.WellFormed) (target : Path) :
    (fs.remove target).WellFormed := by
  rw [FileSystem.remove]
  split
  · exact wellFormed_directory_nil fs.rootInode
  · split
    · exact h.unlink target
    · exact h

/-- A file system stays well formed when a file in it is emptied. -/
theorem WellFormed.truncate {fs : FileSystem} (h : fs.WellFormed) (mode : OpenMode)
    (inode : Inode) : (FileSystem.truncate mode inode fs).WellFormed := by
  cases mode <;> exact h

/-- Opening a file keeps file systems well formed. -/
theorem keeps_openNode (mode : OpenMode) (node : Node) :
    Keeps WellFormed (openNode mode node) fun _ => True := by
  cases node with
  | file inode =>
    have htruncate : Keeps WellFormed (modify (truncate mode inode)) fun _ => True :=
      keeps_modify (fun fs hfs => hfs.truncate mode inode) trivial
    exact htruncate.bind fun _ _ => keeps_get.bind fun _ _ => keeps_pure trivial
  | directory inode entries | null inode => exact keeps_pure trivial

/-- Opening what is at a path, or making it, keeps file systems well formed. -/
theorem keeps_openAt (target : Path) (mode : OpenMode) :
    Keeps WellFormed (openAt target mode) fun _ => True := by
  refine keeps_get.bind fun fs _ => ?_
  split
  · exact keeps_throw _
  · next node _ _ => exact keeps_openNode mode node
  · dsimp only
    refine keeps_throw_or fun _ => ?_
    exact (keeps_add target (.file []) false).bind fun node _ => keeps_openNode mode node

/-- The file system without entries is well formed. -/
theorem wellFormed_empty : FileSystem.empty.WellFormed := wellFormed_directory_nil 0

/-- A file system made of well-formed trees with distinct proper names is well formed. -/
theorem wellFormed_ofEntries {entries : List (Text × Tree)}
    (h : (Tree.directory entries).WellFormed) :
    (FileSystem.ofEntries entries).WellFormed := by
  have hinstall := h.install Disk.empty
  rw [Tree.install] at hinstall
  exact hinstall

end FileSystem

end MemShell
