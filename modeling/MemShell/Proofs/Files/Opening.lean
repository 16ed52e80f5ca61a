import MemShell.Proofs.Files.Adding
import MemShell.Proofs.Files.Carrying

/-!
# When a file can be opened

Whether a file can be opened to be written depends only on what is seen at its path and above it. So
opening other files before it makes no difference.
-/

namespace MemShell

/-- Whether a file can be opened to be written at a path, which has no slash at its end: no
directory is there, and if nothing is there the file can be made in the directory above. -/
def FileMap.CanOpen (map : FileMap) (target : Path) : Prop :=
  target.isDirectory = false ∧ map target.parts ≠ .directory ∧
    (map target.parts = .absent → map target.parent.parts = .directory)

instance (map : FileMap) (target : Path) : Decidable (map.CanOpen target) :=
  inferInstanceAs (Decidable (_ ∧ _ ∧ (_ → _)))

namespace FileMap

variable {map : FileMap} {target : Path} {place : List Text}

/-- Opening a file makes no directory and takes none away. -/
theorem touch_eq_directory_iff {names : List Text} (mode : OpenMode) :
    map.touch place mode names = .directory ↔ map names = .directory := by
  rw [touch]
  split
  · cases map names with
    | file text => by_cases hmode : mode = .write <;> simp [hmode]
    | absent | directory | null => simp
  · exact Iff.rfl

/-- A file that is opened to be written from the start is empty. -/
theorem eq_nil_of_touch_write {text : Text} (h : map.touch place .write place = .file text) :
    text = [] := by
  rw [touch, if_pos rfl] at h
  cases hview : map place <;> simp_all

/-- A file can still be opened after a file at another place has been. -/
theorem CanOpen.touch (h : map.CanOpen target) (hplace : target.parts ≠ place) (mode : OpenMode) :
    (map.touch place mode).CanOpen target := by
  obtain ⟨hflag, hdirectory, hparent⟩ := h
  have hsame : map.touch place mode target.parts = map target.parts := if_neg hplace
  rw [CanOpen, hsame]
  exact ⟨hflag, hdirectory, fun habsent => (touch_eq_directory_iff mode).2 (hparent habsent)⟩

end FileMap

namespace FileSystem

variable {fs : FileSystem} {target : Path}

/-- What is found at a path without a slash at its end is found by its names. -/
theorem get_eq_find (hflag : target.isDirectory = false) :
    fs.get target = fs.find target.parts := by
  rw [get, hflag]
  cases fs.find target.parts <;> rfl

/-- A path is ready for a file if nothing is there and its parent is a directory. -/
theorem prepare_file (hflag : target.isDirectory = false)
    (hdir : fs.IsDirectory target.parent.parts) (habsent : fs.find target.parts = none) :
    prepare target .file false fs = .ok () fs := by
  have hroot : target.parts ≠ [] := fun hnil => by
    rw [target.root_isDirectory hnil] at hflag
    cases hflag
  have hslash : SlashFits target .file := fun htrue => by
    rw [hflag] at htrue
    cases htrue
  simp [prepare_of_isDirectory hroot hslash hdir, habsent]

/-- A file that can be opened is opened. -/
theorem exists_openAt_of_canOpen {mode : OpenMode} (hmode : mode ≠ .read)
    (h : FileMap.CanOpen fs.look target) :
    ∃ stream after, openAt target mode fs = .ok stream after := by
  obtain ⟨hflag, hdirectory, hparent⟩ := h
  rw [openAt, FileOp.get_bind, get_eq_find hflag]
  cases hfind : fs.find target.parts with
  | none =>
    have hdir := isDirectory_iff_look.2 (hparent (find_eq_none_iff_look.1 hfind))
    have hadd : add target (.file []) false fs = _ := add_of_prepare (prepare_file hflag hdir hfind)
    obtain ⟨stream, hopen⟩ := openNode_file mode fs.disk.next (fs.attach target (.file []))
    rw [if_neg hmode]
    exact ⟨stream, _, (bind_ok hadd).trans hopen⟩
  | some node =>
    cases node with
    | directory inode entries =>
      exact absurd (isDirectory_iff_look.1 ⟨inode, entries, hfind⟩) hdirectory
    | file inode =>
      obtain ⟨stream, hopen⟩ := openNode_file mode inode fs
      exact ⟨stream, _, hopen⟩
    | null inode => exact ⟨.null, fs, rfl⟩

/-- A path is prepared for a file only if it has no slash at its end. -/
theorem leaves_prepare_file (target : Path) (fs : FileSystem) :
    (prepare target .file false).Leaves fs fun _ _ => FileMap.CanOpen fs.look target := by
  intro _ made hrun
  have hprepared := (leaves_prepare target .file false fs _ made hrun).1
  obtain rfl := hprepared.eq_of_not rfl
  have hslash := slash_of_prepare hprepared.parts_ne_nil hrun
  have hflag : target.isDirectory = false := Bool.eq_false_iff.2 fun htrue => nomatch hslash htrue
  refine ⟨hflag, ?_, fun _ => isDirectory_iff_look.1 hprepared.isDirectory⟩
  rw [find_eq_none_iff_look.1 hprepared.absent]
  nofun

/-- A path leads to a file only if it has no slash at its end. -/
theorem canOpen_of_get {node : Node} (hget : fs.get target = some node)
    (hkind : node.kind ≠ .directory) : FileMap.CanOpen fs.look target := by
  have hfind := find_of_get hget
  have hlook : fs.look target.parts = View.ofStat fs.disk (some (node.kind, node.inode)) := by
    rw [look_eq, stat, Node.stat, ← find, hfind]
    rfl
  have hflag : target.isDirectory = false := by
    rw [get, hfind] at hget
    cases hflag : target.isDirectory with
    | false => rfl
    | true => simp [hflag, hkind] at hget
  rw [FileMap.CanOpen, hlook]
  cases node with
  | directory inode entries => exact absurd rfl hkind
  | file inode | null inode => exact ⟨hflag, View.noConfusion, View.noConfusion⟩

/-- A file can be opened to be written exactly if opening it succeeds. -/
theorem exists_openAt_iff {mode : OpenMode} (hmode : mode ≠ .read) :
    (∃ stream after, openAt target mode fs = .ok stream after) ↔
      FileMap.CanOpen fs.look target := by
  refine ⟨fun ⟨stream, after, hrun⟩ => ?_, exists_openAt_of_canOpen hmode⟩
  have hleaves : (openAt target mode).Leaves fs fun _ _ => FileMap.CanOpen fs.look target := by
    refine .get ?_
    cases hget : fs.get target with
    | none =>
      have hadd : (add target (.file []) false).Leaves fs fun _ _ =>
          FileMap.CanOpen fs.look target :=
        (leaves_prepare_file target fs).bind fun _ _ hcan _ _ _ => hcan
      exact .throw_or fun _ => hadd.bind fun _ _ hcan _ _ _ => hcan
    | some node =>
      cases node with
      | directory inode entries => exact .throw _
      | file inode | null inode => exact fun _ _ _ => canOpen_of_get hget nofun
  exact hleaves stream after hrun

end FileSystem

end MemShell
