import MemShell.Proofs.Files.Carrying

/-!
# Texts that only grow

Adding, copying, moving and removing give out new numbers and change no text that is there, so the
texts of files that have been removed stay as they are too. Only opening a file changes a text: a
file that is there is emptied when it is opened to be written. A stream stands inside the text of
its file when it is opened.
-/

namespace MemShell

/-- A disk after another: its numbers are still given out, and no text has become shorter. -/
structure Disk.Grows (before after : Disk) : Prop where
  /-- No number is taken back. -/
  next_le : before.next ≤ after.next
  /-- No text has become shorter. -/
  length_le : ∀ {inode}, inode < before.next →
    (before.read inode).length ≤ (after.read inode).length

namespace Disk.Grows

variable {before middle after : Disk}

/-- A disk has not shrunk if nothing has been done. -/
theorem refl (disk : Disk) : disk.Grows disk where
  next_le := Nat.le_refl _
  length_le _ := Nat.le_refl _

/-- A disk that grows twice grows. -/
theorem trans (h : before.Grows middle) (hlater : middle.Grows after) : before.Grows after where
  next_le := Nat.le_trans h.next_le hlater.next_le
  length_le hinode := by
    have hmiddle := Nat.lt_of_lt_of_le hinode h.next_le
    exact Nat.le_trans (h.length_le hinode) (hlater.length_le hmiddle)

/-- A disk grows when a tree is put on it. -/
theorem install (tree : Tree) (disk : Disk) : disk.Grows (tree.install disk).2 where
  next_le := (tree.stored_install disk).next_le
  length_le hinode := Nat.le_of_eq (by rw [(tree.stored_install disk).read_eq _ hinode])

/-- A disk grows when a text is written that is not shorter than the one before. -/
theorem write {disk : Disk} {inode : Inode} {text : Text}
    (h : (disk.read inode).length ≤ text.length) : disk.Grows (disk.write inode text) where
  next_le := Nat.le_of_eq (Disk.next_write _ _ _).symm
  length_le {other} hother := by
    by_cases hsame : other = inode
    · subst hsame
      rwa [Disk.read_write hother, if_pos rfl]
    · exact Nat.le_of_eq (by rw [Disk.read_write_of_ne _ hsame])

end Disk.Grows

/-- A stream on a file stands inside the text of the file, whose number has been given out. -/
def Stream.Inside (disk : Disk) : Stream → Prop
  | .file inode pointer => inode < disk.next ∧ pointer ≤ (disk.read inode).length
  | _ => True

/-- A stream stays inside when the disk grows. -/
theorem Stream.Inside.mono {before after : Disk} {stream : Stream} (h : stream.Inside before)
    (hgrows : before.Grows after) : stream.Inside after := by
  cases stream with
  | file inode pointer =>
    obtain ⟨hinode, hpointer⟩ := h
    exact ⟨Nat.lt_of_lt_of_le hinode hgrows.next_le,
      Nat.le_trans hpointer (hgrows.length_le hinode)⟩
  | buffer unread | null => trivial

namespace FileSystem

open FileOp

variable {fs : FileSystem} {before : Disk} {target : Path}

/-! ## Operations that change no text -/

/-- The disk of a file system has grown from another. -/
def GrownFrom (before : Disk) (fs : FileSystem) : Prop := before.Grows fs.disk

/-- The disk grows when a tree is put on it. -/
theorem grows_install (tree : Tree) :
    Keeps (GrownFrom before) (install tree) fun _ => True :=
  fun fs hfs => ⟨hfs.trans (.install tree fs.disk), trivial⟩

/-- A change of the tree alone leaves the disk as it is. -/
theorem grows_modify {change : FileSystem → FileSystem} (h : ∀ fs, (change fs).disk = fs.disk) :
    Keeps (GrownFrom before) (modify change) fun _ => True :=
  keeps_modify (fun fs hfs => by rwa [GrownFrom, h]) trivial

/-- The disk grows when it is made sure of a directory. -/
theorem grows_ensureDirectory (path : Path) :
    Keeps (GrownFrom before) (ensureDirectory path) fun _ => True := by
  refine keeps_get.bind fun fs _ => ?_
  cases fs.get path with
  | some node =>
    cases node with
    | directory inode entries => exact keeps_pure trivial
    | file inode | null inode => exact keeps_throw _
  | none => exact (grows_install _).bind fun node _ => grows_modify fun _ => rfl

/-- The disk grows when a path is prepared. -/
theorem grows_prepare (kind : Kind) (createParents : Bool) :
    Keeps (GrownFrom before) (prepare target kind createParents) fun _ => True := by
  unfold prepare
  dsimp only
  refine keeps_throw_or fun _ => keeps_throw_or fun _ => ?_
  refine keeps_when (keeps_forM fun path _ => grows_ensureDirectory path) ?_
  refine keeps_get.bind fun fs _ => ?_
  split
  · exact keeps_throw _
  · split
    · exact keeps_throw _
    · exact keeps_pure trivial
  · exact keeps_throw _

/-- The disk grows when a tree is added. -/
theorem grows_add (target : Path) (tree : Tree) (createParents : Bool) :
    Keeps (GrownFrom before) (add target tree createParents) fun _ => True := by
  refine (grows_prepare tree.kind createParents).bind fun _ _ => ?_
  refine (grows_install tree).bind fun node _ => ?_
  have hlink : Keeps (GrownFrom before) (modify fun fs => fs.link target node) fun _ => True :=
    grows_modify fun _ => rfl
  exact hlink.bind fun _ _ => keeps_pure trivial

/-- The disk grows when a node is copied. -/
theorem grows_copy (source destination : Path) (recursive : Bool) :
    Keeps (GrownFrom before) (copy source destination recursive) fun _ => True := by
  unfold copy
  dsimp only
  refine keeps_throw_or fun _ => keeps_get.bind fun fs _ => ?_
  split
  · exact keeps_throw _
  · exact keeps_throw_or fun _ => (grows_add destination _ false).discard

/-- The disk does not shrink when a node is moved. -/
theorem grows_move (source destination : Path) :
    Keeps (GrownFrom before) (move source destination) fun _ => True := by
  unfold move
  dsimp only
  refine keeps_throw_or fun _ => keeps_get.bind fun fs _ => ?_
  split
  · exact keeps_throw _
  · next node _ =>
    refine (grows_prepare node.kind false).bind fun _ _ => ?_
    have hlink : Keeps (GrownFrom before) (modify fun fs => fs.link destination node)
        fun _ => True :=
      grows_modify fun _ => rfl
    exact hlink.bind fun _ _ => grows_modify fun _ => rfl

/-! ## Opening -/

/-- A stream on a file stands inside the text that the file has once it is opened. -/
theorem inside_opened {inode : Inode} (h : inode < fs.disk.next) (mode : OpenMode) :
    (Stream.file inode (startOf mode (fs.disk.read inode))).Inside fs.disk := by
  refine ⟨h, ?_⟩
  cases mode with
  | append => exact Nat.le_refl _
  | read | write => exact Nat.zero_le _

/-- Opening a file in a mode gives out no number. -/
theorem next_truncate (mode : OpenMode) (inode : Inode) (fs : FileSystem) :
    (truncate mode inode fs).disk.next = fs.disk.next := by
  cases mode with
  | write => exact Disk.next_write _ _ _
  | read | append => rfl

/-- The disk does not shrink when a file is opened, unless a text is emptied. -/
theorem grows_truncate {mode : OpenMode} {inode : Inode}
    (h : mode = .write → fs.disk.read inode = []) :
    fs.disk.Grows (truncate mode inode fs).disk := by
  cases mode with
  | write => exact .write (Nat.le_of_eq (congrArg List.length (h rfl)))
  | read | append => exact .refl _

/-- An opened stream stands inside its file, and the disk does not shrink unless a file that was
there is opened to be written. -/
theorem leaves_openAt_inside (h : fs.Numbered) (target : Path) (mode : OpenMode) :
    (openAt target mode).Leaves fs fun stream after => stream.Inside after.disk ∧
      ((∀ inode, mode = .write → fs.get target ≠ some (.file inode)) →
        fs.disk.Grows after.disk) := by
  refine .get ?_
  cases hget : fs.get target with
  | none =>
    dsimp only
    refine .throw_or fun _ => ?_
    have hadd := (add_allOrNothing target (.file []) false fs).leaves_and fun _ _ _ => trivial
    refine hadd.bind fun node made hmade => ?_
    obtain ⟨⟨raised, hprepared, rfl, rfl⟩, -⟩ := hmade
    obtain rfl := (hprepared.eq_of_not rfl).symm
    rintro _ _ ⟨⟩
    have hlt : fs.disk.next < (fs.attach target (.file [])).disk.next := by
      change fs.disk.next < (fs.disk.alloc []).2.next
      rw [Disk.next_alloc]
      exact Nat.lt_succ_self _
    have hempty : (fs.attach target (.file [])).disk.read fs.disk.next = [] :=
      (fs.disk.read_alloc [] _).trans (if_pos rfl)
    refine ⟨inside_opened ?_ mode, fun _ => ?_⟩
    · rw [next_truncate]
      exact hlt
    · exact (Disk.Grows.install (.file []) fs.disk).trans (grows_truncate fun _ => hempty)
  | some node =>
    cases node with
    | directory inode entries => exact .throw _
    | null inode =>
      rintro _ _ ⟨⟩
      exact ⟨trivial, fun _ => .refl _⟩
    | file inode =>
      rintro _ _ ⟨⟩
      have hstat : fs.stat target.parts = some (.file, inode) :=
        Option.map_eq_some_iff.2 ⟨_, find_of_get hget, rfl⟩
      refine ⟨inside_opened ?_ mode, fun hmode => ?_⟩
      · rw [next_truncate]
        exact h.lt_next hstat
      · exact grows_truncate fun hwrite => absurd rfl (hmode inode hwrite)

end FileSystem

end MemShell
