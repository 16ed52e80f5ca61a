import MemShell.Proofs.Files.Invariant
import MemShell.Proofs.Files.Stat

/-!
# Trees on the disk

A tree that is put on the disk is seen there as it was, under numbers that were not in use, and
nothing that was on the disk changes. So a tree that is attached under a path of a file system is
seen at that path, and the file system stays numbered.
-/

namespace MemShell

/-! ## Views of trees -/

/-- What is seen of a tree. -/
def Tree.view : Tree → FileSystem.View
  | directory _ => .directory
  | file text => .file text
  | null => .null

/-- What is seen at a list of names below a tree. -/
def Tree.look (tree : Tree) : List Text → FileSystem.View
  | [] => tree.view
  | name :: names =>
    match tree with
    | directory entries =>
      match entries.lookup name with
      | some child => child.look names
      | none => .absent
    | _ => .absent

/-- What is seen at a list of names below the entries of a directory. -/
def lookBelow (entries : List (Text × Tree)) : List Text → FileSystem.View
  | [] => .absent
  | name :: names =>
    match entries.lookup name with
    | some child => child.look names
    | none => .absent

/-- The variant and the number of the node that names lead to below the entries of a directory. -/
def statBelow (entries : Entries) : List Text → Option (Kind × Inode)
  | [] => none
  | name :: names => (entries.lookup name).bind fun child => child.stat names

/-! ## Putting trees on the disk -/

/-- What names lead to has been stored on a disk, giving a later disk: it has the views that it
should have, its numbers are new and tell its nodes apart, and older numbers keep their texts. -/
structure Stored (before after : Disk) (stat : List Text → Option (Kind × Inode))
    (look : List Text → FileSystem.View) : Prop where
  /-- No number is taken back. -/
  next_le : before.next ≤ after.next
  /-- Older numbers keep their texts. -/
  read_eq : ∀ inode, inode < before.next → after.read inode = before.read inode
  /-- The numbers are new. -/
  bounds : ∀ {names kind inode}, stat names = some (kind, inode) →
    before.next ≤ inode ∧ inode < after.next
  /-- No number is met twice. -/
  eq_of_inode : ∀ {names others kind other inode}, stat names = some (kind, inode) →
    stat others = some (other, inode) → names = others
  /-- The views are as they should be. -/
  view_eq : ∀ names, FileSystem.View.ofStat after (stat names) = look names

namespace Stored

variable {before middle after : Disk} {stat below : List Text → Option (Kind × Inode)}
  {look beneath : List Text → FileSystem.View}

/-- Storing nothing changes nothing. -/
theorem nothing (disk : Disk) : Stored disk disk (fun _ => none) (fun _ => .absent) where
  next_le := Nat.le_refl _
  read_eq _ _ := rfl
  bounds h := by cases h
  eq_of_inode h := by cases h
  view_eq _ := rfl

/-- What is stored is what is seen. -/
theorem congr {seen : List Text → Option (Kind × Inode)} {views : List Text → FileSystem.View}
    (h : Stored before after stat look) (hstat : ∀ names, seen names = stat names)
    (hlook : ∀ names, views names = look names) : Stored before after seen views := by
  rwa [funext hstat, funext hlook]

/-- What has been stored looks the same after more has been stored. -/
theorem view_later (h : Stored before middle stat look) (hlater : Stored middle after below beneath)
    (names : List Text) : FileSystem.View.ofStat after (stat names) = look names := by
  rw [← h.view_eq names]
  refine FileSystem.View.ofStat_congr fun kind inode hstat => ?_
  exact hlater.read_eq inode (h.bounds hstat).2

/-- A single number has been stored with its text. -/
theorem alloc (disk : Disk) (text : Text) (kind : Kind) (view : FileSystem.View)
    (hview : FileSystem.View.ofStat (disk.alloc text).2 (some (kind, disk.next)) = view) :
    Stored disk (disk.alloc text).2
      (fun names => if names = [] then some (kind, disk.next) else none)
      (fun names => if names = [] then view else .absent) where
  next_le := by rw [Disk.next_alloc]; exact Nat.le_succ _
  read_eq inode h := by rw [Disk.read_alloc, if_neg (Nat.ne_of_lt h)]
  bounds {names kind inode} h := by
    split at h
    · cases h
      rw [Disk.next_alloc]
      exact ⟨Nat.le_refl _, Nat.lt_succ_self _⟩
    · cases h
  eq_of_inode {names others kind other inode} h hother := by
    split at h
    · next hnames =>
      split at hother
      · next hothers => rw [hnames, hothers]
      · cases hother
    · cases h
  view_eq names := by
    split
    · exact hview
    · rfl

/-- Two parts that are stored one after the other are stored together, if every list of names leads
into one of them at most. -/
theorem append {both : List Text → Option (Kind × Inode)} {lookBoth : List Text → FileSystem.View}
    (h : Stored before middle stat look) (hlater : Stored middle after below beneath)
    (isFirst : List Text → Prop) [DecidablePred isFirst] (first second : List Text → List Text)
    (hstat : ∀ names, both names =
      if isFirst names then stat (first names) else below (second names))
    (hlook : ∀ names, lookBoth names =
      if isFirst names then look (first names) else beneath (second names))
    (hfirst : ∀ {names others}, isFirst names → isFirst others → first names = first others →
      names = others)
    (hsecond : ∀ {names others}, ¬isFirst names → ¬isFirst others → second names = second others →
      names = others) :
    Stored before after both lookBoth where
  next_le := Nat.le_trans h.next_le hlater.next_le
  read_eq inode hinode := by
    rw [hlater.read_eq inode (Nat.lt_of_lt_of_le hinode h.next_le), h.read_eq inode hinode]
  bounds {names kind inode} hnames := by
    rw [hstat] at hnames
    split at hnames
    · have hbounds := h.bounds hnames
      exact ⟨hbounds.1, Nat.lt_of_lt_of_le hbounds.2 hlater.next_le⟩
    · have hbounds := hlater.bounds hnames
      exact ⟨Nat.le_trans h.next_le hbounds.1, hbounds.2⟩
  eq_of_inode {names others kind other inode} hnames hothers := by
    rw [hstat] at hnames hothers
    split at hnames <;> split at hothers
    · next hn ho => exact hfirst hn ho (h.eq_of_inode hnames hothers)
    · exact absurd (h.bounds hnames).2 (Nat.not_lt.2 (hlater.bounds hothers).1)
    · exact absurd (h.bounds hothers).2 (Nat.not_lt.2 (hlater.bounds hnames).1)
    · next hn ho => exact hsecond hn ho (hlater.eq_of_inode hnames hothers)
  view_eq names := by
    rw [hstat, hlook]
    split
    · exact h.view_later hlater _
    · exact hlater.view_eq _

end Stored

/-- A directory is seen as its own number and its entries. -/
theorem Node.stat_directory (inode : Inode) (entries : Entries) (names : List Text) :
    (Node.directory inode entries).stat names =
      if names = [] then some (.directory, inode) else statBelow entries names := by
  cases names with
  | nil => rfl
  | cons name names => exact Node.stat_directory_cons inode entries name names

/-- A directory looks like a directory and its entries. -/
theorem Tree.look_directory (entries : List (Text × Tree)) (names : List Text) :
    (Tree.directory entries).look names =
      if names = [] then .directory else lookBelow entries names := by
  cases names <;> rfl

/-- Below the first of several entries there is what is below its node. -/
theorem statBelow_cons (name : Text) (node : Node) (entries : Entries) (names : List Text) :
    statBelow ((name, node) :: entries) names =
      if names.head? = some name then node.stat names.tail else statBelow entries names := by
  cases names with
  | nil => rfl
  | cons other names =>
    by_cases h : other = name <;> simp [statBelow, Assoc.lookup_cons_eq_ite, h]

/-- Below the first of several entries there is what is below its tree. -/
theorem lookBelow_cons (name : Text) (tree : Tree) (entries : List (Text × Tree))
    (names : List Text) :
    lookBelow ((name, tree) :: entries) names =
      if names.head? = some name then tree.look names.tail else lookBelow entries names := by
  cases names with
  | nil => rfl
  | cons other names =>
    by_cases h : other = name <;> simp [lookBelow, Assoc.lookup_cons_eq_ite, h]

/-- Lists of names with the same first name and the same others are the same. -/
private theorem eq_of_head?_of_tail {names others : List Text} {name : Text}
    (hnames : names.head? = some name) (hothers : others.head? = some name)
    (h : names.tail = others.tail) : names = others := by
  obtain ⟨rest, rfl⟩ := List.head?_eq_some_iff.1 hnames
  obtain ⟨back, rfl⟩ := List.head?_eq_some_iff.1 hothers
  exact congrArg (name :: ·) h

mutual

/-- A tree that is put on the disk is stored there. -/
theorem Tree.stored_install (tree : Tree) (disk : Disk) :
    Stored disk (tree.install disk).2 (tree.install disk).1.stat tree.look :=
  match tree with
  | .directory entries => by
    have hself := Stored.alloc disk [] .directory .directory rfl
    have hentries := Tree.stored_installEntries entries (disk.alloc []).2
    refine hself.append hentries (fun names => names = []) id id
      (fun names => ?_) (fun names => ?_) (fun _ _ h => h) (fun _ _ h => h)
    · rw [Tree.install, Node.stat_directory]
      split
      · next h => rw [h]; rfl
      · rfl
    · rw [Tree.look_directory]
      split
      · next h => rw [h]; rfl
      · rfl
  | .file text => by
    have hview : FileSystem.View.ofStat (disk.alloc text).2 (some (.file, disk.next)) =
        .file text := by
      rw [FileSystem.View.ofStat, Disk.read_alloc, if_pos rfl]
    exact (Stored.alloc disk text .file (.file text) hview).congr
      (fun names => by cases names <;> rfl)
      (fun names => by cases names <;> rfl)
  | .null =>
    (Stored.alloc disk [] .null .null rfl).congr
      (fun names => by cases names <;> rfl) (fun names => by cases names <;> rfl)

/-- Entries that are put on the disk are stored there. -/
theorem Tree.stored_installEntries (entries : List (Text × Tree)) (disk : Disk) :
    Stored disk (Tree.installEntries entries disk).2
      (statBelow (Tree.installEntries entries disk).1) (lookBelow entries) :=
  match entries with
  | [] => (Stored.nothing disk).congr (fun names => by cases names <;> rfl)
      (fun names => by cases names <;> rfl)
  | (name, tree) :: entries =>
    (Tree.stored_install tree disk).append
      (Tree.stored_installEntries entries (tree.install disk).2)
      (fun names => names.head? = some name) List.tail id
      (fun names => by rw [Tree.installEntries]; exact statBelow_cons name _ _ names)
      (fun names => lookBelow_cons name tree entries names)
      (fun hnames hothers h => eq_of_head?_of_tail hnames hothers h) (fun _ _ h => h)

end

/-! ## Contents -/

/-- The contents of a node look like the node. -/
theorem Node.look_contents (disk : Disk) (node : Node) (names : List Text) :
    (node.contents disk).look names = FileSystem.View.ofStat disk (node.stat names) := by
  induction names generalizing node with
  | nil => cases node <;> rfl
  | cons name names ih =>
    cases node with
    | directory inode entries =>
      rw [contents, Tree.look, contentsOfEntries_eq, Assoc.lookup_map, stat_directory_cons]
      cases entries.lookup name with
      | none => rfl
      | some child => exact ih child
    | file inode | null inode => rfl

namespace FileSystem

variable {fs : FileSystem}

/-- What a numbered file system holds has been stored on its disk. -/
theorem Numbered.stored (h : fs.Numbered) : Stored Disk.empty fs.disk fs.stat fs.look where
  next_le := Nat.zero_le _
  read_eq inode hinode := absurd hinode (Nat.not_lt_zero inode)
  bounds hstat := ⟨Nat.zero_le _, h.lt_next hstat⟩
  eq_of_inode := h.eq_of_inode
  view_eq names := (fs.look_eq names).symm

/-- A file system whose nodes have been stored on its disk is numbered. -/
theorem numbered_of_stored {disk : Disk} {look : List Text → View}
    (h : Stored disk fs.disk fs.stat look) : fs.Numbered :=
  ⟨fun hstat => (h.bounds hstat).2, h.eq_of_inode⟩

/-- A file system whose root is made of trees is numbered. -/
theorem numbered_reroot (fs : FileSystem) (entries : List (Text × Tree)) :
    (fs.reroot entries).Numbered :=
  numbered_of_stored (Tree.stored_install (.directory entries) fs.disk)

/-- A file system made of trees is numbered. -/
theorem numbered_ofEntries (entries : List (Text × Tree)) : (ofEntries entries).Numbered :=
  numbered_reroot ⟨0, [], Disk.empty⟩ entries

/-- The empty file system is numbered. -/
theorem numbered_empty : FileSystem.empty.Numbered := numbered_reroot ⟨0, [], Disk.empty⟩ []

/-- The file system with a tree put on its disk and linked under a path. -/
def attach (fs : FileSystem) (path : Path) (tree : Tree) : FileSystem :=
  { fs with disk := (tree.install fs.disk).2 }.link path (tree.install fs.disk).1

section Attach

variable {path : Path} (hpath : path.parts ≠ []) (hdir : fs.IsDirectory path.parent.parts)

include hpath hdir

/-- An attached tree is met at and below its path, and nothing else changes. -/
theorem stat_attach (tree : Tree) (names : List Text) :
    (fs.attach path tree).stat names =
      if path.parts <+: names then
        (tree.install fs.disk).1.stat (names.drop path.parts.length)
      else fs.stat names :=
  stat_link { fs with disk := (tree.install fs.disk).2 } hpath hdir _ names

/-- An attached tree is stored after what was there. -/
theorem stored_attach (h : fs.Numbered) (tree : Tree) :
    Stored Disk.empty (fs.attach path tree).disk (fs.attach path tree).stat fun names =>
      if path.parts <+: names then tree.look (names.drop path.parts.length) else fs.look names := by
  refine h.stored.append (Tree.stored_install tree fs.disk)
    (fun names => ¬path.parts <+: names) id (fun names => names.drop path.parts.length)
    (fun names => ?_) (fun names => ?_)
    (fun _ _ h => h) (fun hnames hothers h => ?_)
  · rw [stat_attach hpath hdir, ite_not]
    rfl
  · rw [ite_not]
    rfl
  · obtain ⟨rest, rfl⟩ := Decidable.not_not.1 hnames
    obtain ⟨back, rfl⟩ := Decidable.not_not.1 hothers
    rw [List.drop_left, List.drop_left] at h
    rw [h]

/-- A file system stays numbered when a tree is attached under a path. -/
theorem Numbered.attach (h : fs.Numbered) (tree : Tree) : (fs.attach path tree).Numbered :=
  numbered_of_stored (stored_attach hpath hdir h tree)

/-- An attached tree is seen at and below its path, and nothing else changes. -/
theorem look_attach (h : fs.Numbered) (tree : Tree) (names : List Text) :
    (fs.attach path tree).look names =
      if path.parts <+: names then tree.look (names.drop path.parts.length)
      else fs.look names := by
  rw [look_eq]
  exact (stored_attach hpath hdir h tree).view_eq names

end Attach

end FileSystem

end MemShell
