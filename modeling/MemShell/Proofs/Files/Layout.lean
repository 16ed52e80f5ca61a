import MemShell.Proofs.Files.Adding
import MemShell.Proofs.Files.Calls
import MemShell.Proofs.Files.Saving
import MemShell.Shell.Layout

/-!
# The first layout

The directories and the null device that the settings name are added to an empty file system where
nothing is yet. Each addition makes the directories that are missing above it, so how much one of
them makes depends on those before it. What comes of all of them does not: main statement, the
layout has a closed form in which the order and the repetitions of the directories do not matter.
-/

namespace MemShell

/-- The settings name directories and a null device. -/
structure Settings.Names (settings : Settings) (directories : List Text) (device : Text) :
    Prop where
  /-- The directories are the ones that are listed. -/
  directories : settings.field .filesystem "standard_dirs" = .array (directories.map .string)
  /-- The null device is the one that is named. -/
  device : settings.field .filesystem "null_device" = .string device

/-- Names lead to one of several directories, or to what lies above one. -/
def IsStandard (directories : List Text) (names : List Text) : Prop :=
  ∃ text ∈ directories, names <+: (Path.ofText text).parts

instance (directories : List Text) (names : List Text) : Decidable (IsStandard directories names) :=
  inferInstanceAs (Decidable (∃ text ∈ directories, _))

/-- The order and the repetitions of the directories do not matter. -/
theorem isStandard_congr {directories others : List Text}
    (h : ∀ text, text ∈ others ↔ text ∈ directories) (names : List Text) :
    IsStandard others names ↔ IsStandard directories names :=
  exists_congr fun text => and_congr_left fun _ => h text

namespace FileMap

/-- A map with directories at a place and above it. -/
def pave (map : FileMap) (place : List Text) : FileMap := fun names =>
  if names <+: place then .directory else map names

/-- The map of the root and several directories with what lies above them. -/
def standard (directories : List Text) : FileMap := fun names =>
  if names = [] ∨ IsStandard directories names then .directory else .absent

/-- The map of the root, several directories with what lies above them, and a null file with what
lies above it unless there is a directory in its place. -/
def laidOut (directories : List Text) (place : List Text) : FileMap := fun names =>
  if names = [] ∨ IsStandard directories names then .directory
  else if names = place then .null
  else if names <+: place then .directory
  else .absent

/-- Where a directory stands in the place of the null file there is none. -/
theorem laidOut_of_standard {directories : List Text} {place : List Text}
    (h : place = [] ∨ IsStandard directories place) :
    laidOut directories place = standard directories := by
  funext names
  rw [laidOut, standard]
  split
  · rfl
  · next hother =>
    have habove : ¬names <+: place := fun habove => hother <| h.imp
      (fun hroot : place = [] => List.prefix_nil.1 (hroot ▸ habove))
      fun ⟨text, htext, hbelow⟩ => ⟨text, htext, habove.trans hbelow⟩
    have hplace : names ≠ place := fun heq => habove (heq ▸ List.prefix_refl _)
    rw [if_neg hplace, if_neg habove]

/-- A null file in a place of its own is added below the directories above it. -/
theorem laidOut_eq_pave {directories : List Text} {place : List Text}
    (h : ¬(place = [] ∨ IsStandard directories place)) (names : List Text) :
    laidOut directories place names =
      if names = place then .null else (standard directories).pave place names := by
  rw [laidOut, pave, standard]
  by_cases hplace : names = place
  · rw [hplace, if_neg h, if_pos rfl, if_pos rfl]
  · rw [if_neg hplace, if_neg hplace]
    by_cases habove : names <+: place
    · rw [if_pos habove, if_pos habove, ite_self]
    · rw [if_neg habove, if_neg habove]

/-- A leaf that is grafted where nothing is, below new directories, is the only thing besides them
that is new. -/
theorem graft_raise_leaf {map : FileMap} {place : List Text}
    (habsent : ∀ names, place <+: names → map names = .absent) {branch : FileMap}
    (hleaf : ∀ name rest, branch (name :: rest) = .absent) (names : List Text) :
    (map.raise place).graft place branch names =
      if names = place then branch [] else map.pave place names := by
  rw [graft]
  by_cases hbelow : place <+: names
  · rw [if_pos hbelow]
    obtain ⟨rest, rfl⟩ := hbelow
    rw [List.drop_left]
    cases rest with
    | nil => rw [List.append_nil, if_pos rfl]
    | cons name rest =>
      have hlonger : ¬place ++ name :: rest <+: place := fun h => by
        have hlength := h.length_le
        rw [List.length_append, List.length_cons] at hlength
        omega
      rw [hleaf, if_neg (by simp), pave, if_neg hlonger, habsent _ (List.prefix_append _ _)]
  · have hne : names ≠ place := fun heq => hbelow (heq ▸ List.prefix_refl _)
    rw [if_neg hbelow, if_neg hne, raise, pave]
    simp only [hne, ne_eq, not_false_eq_true, and_true]

/-- One more directory in the list is one more that is paved. -/
theorem standard_concat (directories : List Text) (text : Text) :
    standard (directories ++ [text]) = (standard directories).pave (Path.ofText text).parts := by
  funext names
  have hconcat : IsStandard (directories ++ [text]) names ↔
      IsStandard directories names ∨ names <+: (Path.ofText text).parts := by
    simp [IsStandard, or_and_right, exists_or]
  simp only [standard, pave, hconcat]
  by_cases hnew : names <+: (Path.ofText text).parts
  · simp [hnew]
  · simp [hnew]

/-- A layout is the same for the same directories. -/
theorem laidOut_congr {directories others : List Text}
    (h : ∀ text, text ∈ others ↔ text ∈ directories) (place : List Text) :
    laidOut others place = laidOut directories place := by
  funext names
  simp only [laidOut, isStandard_congr h]

end FileMap

namespace FileSystem

variable {fs : FileSystem} {directories : List Text} {device : Text}

/-! ## Where there are directories only -/

/-- There is nothing but directories. -/
def OnlyDirectories (fs : FileSystem) : Prop :=
  ∀ names, fs.look names ≠ .absent → fs.look names = .directory

/-- There is nothing but directories where only standard ones are. -/
theorem onlyDirectories_of_look (h : fs.look = FileMap.standard directories) :
    fs.OnlyDirectories := by
  intro names hnames
  rw [h, FileMap.standard] at hnames ⊢
  split
  · rfl
  · next hother => exact absurd (if_neg hother) hnames

namespace OnlyDirectories

variable (h : fs.OnlyDirectories) {path : Path}

include h

/-- A path leads somewhere if its names lead to a directory. -/
theorem has_iff : fs.has path = true ↔ fs.look path.parts = .directory := by
  rw [has, isSome_get_iff_resolves, FileMap.Resolves]
  constructor
  · exact fun hresolves => h _ hresolves.1
  · exact fun hdirectory => ⟨by rw [hdirectory]; exact View.noConfusion, fun _ => hdirectory⟩

/-- What a path leads nowhere from is absent. -/
theorem find_eq_none (hmissing : fs.has path = false) : fs.find path.parts = none := by
  rw [find_eq_none_iff_look]
  by_contra hlook
  rw [h.has_iff.2 (h _ hlook)] at hmissing
  cases hmissing

/-- A path that leads nowhere is not the root. -/
theorem parts_ne_nil (hmissing : fs.has path = false) : path.parts ≠ [] := by
  intro hroot
  have hfree := h.find_eq_none hmissing
  rw [hroot] at hfree
  cases hfree

/-- A path that leads nowhere admits whatever may be written as the path is. -/
theorem admits {kind : Kind} (hmissing : fs.has path = false) (hslash : SlashFits path kind) :
    fs.Admits path kind := by
  refine ⟨h.parts_ne_nil hmissing, hslash, clear_iff.2 fun depth _ node hfind => ?_,
    h.find_eq_none hmissing⟩
  refine (isDirectory_iff_kind hfind).1 (isDirectory_iff_look.2 (h _ fun habsent => ?_))
  rw [find_eq_none_iff_look.2 habsent] at hfind
  cases hfind

end OnlyDirectories

/-! ## Adding what is missing -/

/-- A tree is not added where something is. -/
theorem addMissing_of_has {path : Path} (h : fs.has path = true) (tree : Tree) :
    addMissing path tree fs = .ok () fs := by
  rw [addMissing, FileOp.get_bind, h]
  rfl

/-- A tree is added where nothing is. -/
theorem addMissing_of_not_has {path : Path} (h : fs.has path = false) (tree : Tree) :
    addMissing path tree fs = (discard (add path tree true)) fs := by
  rw [addMissing, FileOp.get_bind, h]
  rfl

/-- A leaf that is missing is added, below new directories where these are missing. -/
theorem addMissing_leaf (hfs : fs.Numbered) (h : fs.OnlyDirectories) {path : Path} {tree : Tree}
    (hmissing : fs.has path = false) (hslash : SlashFits path tree.kind)
    (hleaf : ∀ name rest, tree.look (name :: rest) = .absent) :
    ∃ after, addMissing path tree fs = .ok () after ∧ after.Numbered ∧
      ∀ names, after.look names =
        if names = path.parts then tree.look [] else FileMap.pave fs.look path.parts names := by
  obtain ⟨node, after, hadd⟩ :=
    (exists_add_iff.trans exists_prepare_iff).2 (h.admits hmissing hslash)
  have hbecomes := add_becomes path tree true fs
  rw [FileOp.AllOrNothing, hadd] at hbecomes
  obtain ⟨hnumbered, hlook⟩ := hbecomes hfs
  have habsent (names : List Text) (hbelow : path.parts <+: names) : fs.look names = .absent :=
    find_eq_none_iff_look.1 (find_eq_none_below hbelow (h.find_eq_none hmissing))
  refine ⟨after, ?_, hnumbered, fun names => ?_⟩
  · rw [addMissing_of_not_has hmissing]
    exact bind_ok hadd
  · rw [hlook]
    exact FileMap.graft_raise_leaf habsent hleaf names

/-- Where something is there is a directory, and so there is above it. -/
theorem OnlyDirectories.pave_eq (h : fs.OnlyDirectories) {path : Path} (hhas : fs.has path = true) :
    FileMap.pave fs.look path.parts = fs.look := by
  funext names
  rw [FileMap.pave]
  split
  · next habove =>
    refine (h names fun habsent => ?_).symm
    have hbelow := find_eq_none_below habove (find_eq_none_iff_look.2 habsent)
    rw [find_eq_none_iff_look, h.has_iff.1 hhas] at hbelow
    cases hbelow
  · rfl

/-- A directory that is added unless it is there has been paved. -/
theorem addMissing_directory (hfs : fs.Numbered) (h : fs.OnlyDirectories) (path : Path) :
    ∃ after, addMissing path .emptyDirectory fs = .ok () after ∧ after.Numbered ∧
      after.look = FileMap.pave fs.look path.parts := by
  cases hhas : fs.has path with
  | true => exact ⟨fs, addMissing_of_has hhas _, hfs, (h.pave_eq hhas).symm⟩
  | false =>
    obtain ⟨after, hadd, hnumbered, hlook⟩ :=
      @addMissing_leaf fs hfs h path .emptyDirectory hhas (fun _ => rfl) fun _ _ => rfl
    refine ⟨after, hadd, hnumbered, funext fun names => ?_⟩
    rw [hlook]
    split
    · next hplace => rw [hplace, FileMap.pave, if_pos (List.prefix_refl _)]; rfl
    · rfl

/-- A null file is not added where a path has a slash at its end and leads nowhere. -/
theorem addMissing_null_slash (h : fs.OnlyDirectories) {path : Path}
    (hmissing : fs.has path = false) (hslash : path.isDirectory = true) :
    addMissing path .null fs = .error (.notADirectory path) fs := by
  have hmisfit : ¬SlashFits path Tree.null.kind := fun hfits => by cases hfits hslash
  rw [addMissing_of_not_has hmissing]
  exact bind_error (add_of_prepare_error (prepare_slash (h.parts_ne_nil hmissing) hmisfit))

/-! ## Adding the layout -/

/-- Of two layouts the second is added to what the first leads to. -/
theorem layOut_append {made : FileSystem} {front : List (Path × Tree)}
    (h : layOut front fs = .ok () made) (back : List (Path × Tree)) :
    layOut (front ++ back) fs = layOut back made := by
  rw [layOut, List.forM_eq_forM, List.forM_append]
  exact bind_ok h

/-- A layout of directories is added, and it does not matter which ones were there. -/
theorem layOut_directories {before : List Text} (hfs : fs.Numbered)
    (hlook : fs.look = FileMap.standard before) (directories : List Text) :
    ∃ after, layOut (directories.map fun text => (Path.ofText text, .emptyDirectory)) fs =
        .ok () after ∧
      after.Numbered ∧ after.look = FileMap.standard (before ++ directories) := by
  induction directories generalizing fs before with
  | nil => exact ⟨fs, rfl, hfs, by rw [hlook, List.append_nil]⟩
  | cons text directories ih =>
    -- The next directory joins those that have been added already.
    obtain ⟨made, hadd, hnumbered, hmade⟩ :=
      addMissing_directory hfs (onlyDirectories_of_look hlook) (Path.ofText text)
    rw [hlook, ← FileMap.standard_concat] at hmade
    obtain ⟨after, hrest, hafter⟩ := ih hnumbered hmade
    rw [List.append_assoc] at hafter
    exact ⟨after, (bind_ok hadd).trans hrest, hafter⟩

/-- Nothing but the root is in an empty file system. -/
theorem look_empty : empty.look = FileMap.standard [] := by
  funext names
  cases names with
  | nil => rfl
  | cons name names => simp [FileMap.standard, IsStandard]; rfl

end FileSystem

namespace Settings

variable {settings : Settings} {directories : List Text} {device : Text}

/-- The layout of directories and a null device that are named. -/
theorem Names.layout (h : settings.Names directories device) (hdevice : device ≠ []) :
    settings.layout = (directories.map fun text => (Path.ofText text, Tree.emptyDirectory)) ++
      [(Path.ofText device, .null)] := by
  have hdirectories : settings.standardDirectories = directories := by
    rw [standardDirectories, textsOf, h.directories, Json.parts, List.map_map]
    exact List.map_id directories
  have hnull : settings.nullDevice? = some device := by
    rw [nullDevice?, h.device]
    simp [Json.isTruthy, hdevice]
  rw [Settings.layout, hdirectories, hnull]
  rfl

end Settings

namespace FileSystem

variable {fs made : FileSystem} {settings : Settings} {directories : List Text} {device : Text}

/-- There is room for the null device: its path has no slash at its end, or there is a directory in
its place anyway. -/
def NullFits (directories : List Text) (device : Text) : Prop :=
  (Path.ofText device).isDirectory = true →
    (Path.ofText device).parts = [] ∨ IsStandard directories (Path.ofText device).parts

instance (directories : List Text) (device : Text) : Decidable (NullFits directories device) :=
  inferInstanceAs (Decidable (_ → _))

/-- A null device is added to directories that are standard, if there is room for it. -/
theorem addMissing_null (hfs : made.Numbered) (hlook : made.look = FileMap.standard directories) :
    (NullFits directories device → ∃ after,
        addMissing (Path.ofText device) .null made = .ok () after ∧
          after.look = FileMap.laidOut directories (Path.ofText device).parts) ∧
      (¬NullFits directories device → addMissing (Path.ofText device) .null made =
        .error (.notADirectory (Path.ofText device)) made) := by
  have honly := onlyDirectories_of_look hlook
  have hhas : made.has (Path.ofText device) = true ↔
      (Path.ofText device).parts = [] ∨ IsStandard directories (Path.ofText device).parts := by
    rw [honly.has_iff, hlook, FileMap.standard]
    split <;> simp_all
  -- Only where nothing is yet does a slash at the end of the path matter.
  cases hcase : made.has (Path.ofText device) with
  | true =>
    have hplace := hhas.1 hcase
    refine ⟨fun _ => ⟨made, addMissing_of_has hcase _, ?_⟩,
      fun hfits => absurd (fun _ => hplace) hfits⟩
    rw [hlook, ← FileMap.laidOut_of_standard hplace]
  | false =>
    have hplace := fun h => Bool.false_ne_true (hcase.symm.trans (hhas.2 h))
    refine ⟨fun hfits => ?_, fun hfits => ?_⟩
    · have hslash : SlashFits (Path.ofText device) Tree.null.kind := fun hslash =>
        absurd (hfits hslash) hplace
      obtain ⟨after, hadd, -, hafter⟩ := addMissing_leaf hfs honly hcase hslash fun _ _ => rfl
      refine ⟨after, hadd, funext fun names => ?_⟩
      rw [hafter, hlook, FileMap.laidOut_eq_pave hplace]
      rfl
    · exact addMissing_null_slash honly hcase (Classical.not_imp.1 hfits).1

/-- What a layout of directories and a null device leads to. -/
theorem layOut_cases (hnames : settings.Names directories device) (hdevice : device ≠ []) :
    (NullFits directories device → ∃ made, layOut settings.layout empty = .ok () made ∧
        made.look = FileMap.laidOut directories (Path.ofText device).parts) ∧
      (¬NullFits directories device → ∃ made, layOut settings.layout empty =
        .error (.notADirectory (Path.ofText device)) made) := by
  obtain ⟨bare, hdirectories, hnumbered, hlook⟩ :=
    layOut_directories numbered_empty look_empty directories
  obtain ⟨hfits, hslash⟩ := @addMissing_null bare directories device hnumbered hlook
  rw [hnames.layout hdevice, layOut_append hdirectories]
  refine ⟨fun h => ?_, fun h => ⟨bare, bind_error (hslash h)⟩⟩
  obtain ⟨after, hadd, hafter⟩ := hfits h
  exact ⟨after, bind_ok hadd, hafter⟩

/-- The file system of the root, several directories and a null device: what lies above them is
there as well, and nothing else. -/
structure LaidOut (directories : List Text) (device : Text) (fs : FileSystem) : Prop where
  /-- The root, the directories and what lies above them are directories. -/
  standard : ∀ path, path.parts = [] ∨ IsStandard directories path.parts →
    ∃ inode entries, fs.get path = some (.directory inode entries)
  /-- The null device is a null file unless there is a directory in its place. -/
  null : (Path.ofText device).parts ≠ [] →
    ¬IsStandard directories (Path.ofText device).parts →
    ∃ inode, fs.get (Path.ofText device) = some (.null inode)
  /-- No path with a slash at its end leads to the null device. -/
  slash : (Path.ofText device).parts ≠ [] →
    ¬IsStandard directories (Path.ofText device).parts →
    ∀ path, path.parts = (Path.ofText device).parts → path.isDirectory = true → fs.get path = none
  /-- What lies above the null device is a directory. -/
  above : ∀ path, path.isAncestorOf (Path.ofText device) = true →
    ∃ inode entries, fs.get path = some (.directory inode entries)
  /-- Nothing else is there. -/
  nothing_else : ∀ path, path.parts ≠ [] → ¬IsStandard directories path.parts →
    ¬path.parts <+: (Path.ofText device).parts → fs.get path = none

/-- A path whose names lead to a directory leads there. -/
theorem get_directory_of_look {path : Path} (h : fs.look path.parts = .directory) :
    ∃ inode entries, fs.get path = some (.directory inode entries) := by
  obtain ⟨inode, entries, hfind⟩ := isDirectory_iff_look.2 h
  exact ⟨inode, entries, get_eq_directory_iff.2 hfind⟩

/-- A path whose names lead to a null file leads there without a slash at its end, and nowhere with
one. -/
theorem get_null_of_look {path : Path} (h : fs.look path.parts = .null) :
    (path.isDirectory = false → ∃ inode, fs.get path = some (.null inode)) ∧
      (path.isDirectory = true → fs.get path = none) := by
  rw [look] at h
  rw [get]
  cases hfind : fs.find path.parts with
  | none => rw [hfind] at h; cases h
  | some node =>
    rw [hfind] at h
    cases node with
    | null inode =>
      exact ⟨fun hslash => ⟨inode, by rw [hslash]; rfl⟩, fun hslash => by rw [hslash]; rfl⟩
    | directory | file => cases h

/-- Where the map of a layout is seen the layout is there. -/
theorem laidOut_of_look (hfits : NullFits directories device)
    (hlook : fs.look = FileMap.laidOut directories (Path.ofText device).parts) :
    LaidOut directories device fs where
  standard path hpath := get_directory_of_look (by rw [hlook, FileMap.laidOut, if_pos hpath])
  null hroot hother := by
    have hplace := not_or.2 ⟨hroot, hother⟩
    refine (get_null_of_look ?_).1 (Bool.eq_false_iff.2 fun hslash => hplace (hfits hslash))
    rw [hlook, FileMap.laidOut, if_neg hplace, if_pos rfl]
  slash hroot hother path hpath := by
    refine (get_null_of_look ?_).2
    rw [hlook, hpath, FileMap.laidOut, if_neg (not_or.2 ⟨hroot, hother⟩), if_pos rfl]
  above path hpath := by
    obtain ⟨habove, hlength⟩ := Path.isAncestorOf_iff.1 hpath
    have hplace : path.parts ≠ (Path.ofText device).parts := fun heq => by
      rw [heq] at hlength
      exact Nat.lt_irrefl _ hlength
    refine get_directory_of_look ?_
    rw [hlook, FileMap.laidOut, if_neg hplace, if_pos habove, ite_self]
  nothing_else path hroot hother habove := by
    have hplace : path.parts ≠ (Path.ofText device).parts := fun heq =>
      habove (heq ▸ List.prefix_refl _)
    have hfind : fs.find path.parts = none := by
      rw [find_eq_none_iff_look, hlook, FileMap.laidOut, if_neg (not_or.2 ⟨hroot, hother⟩),
        if_neg hplace, if_neg habove]
    rw [get, hfind]

end FileSystem

/-! ## Layouts in a world -/

namespace Action

variable {α β : Type}

/-- An action does to the files of the world what an operation does, and fails as it does; the rest
of the world stays as it is. -/
def ActsOnFiles (action : Action Mishap α) (op : FileOp α) : Prop :=
  ∀ progress,
    match op progress.world.files with
    | .ok value made => ∃ log,
        action progress =
          .ok value { progress with world := { progress.world with files := made }, log := log }
    | .error error made => ∃ log,
        action progress = .error (.file error)
          { progress with world := { progress.world with files := made }, log := log }

namespace ActsOnFiles

variable {action : Action Mishap α} {op : FileOp α}

/-- Giving a value leaves the files as they are. -/
theorem pure (value : α) : ActsOnFiles (pure value) (pure value) := fun progress =>
  ⟨progress.log, rfl⟩

/-- An operation on the file system acts on the files. -/
theorem onFiles (op : FileOp α) : ActsOnFiles (onFiles op) op := by
  intro progress
  rw [Action.onFiles, EStateM.run]
  cases op progress.world.files with
  | ok value made => exact ⟨progress.log, rfl⟩
  | error error made => exact ⟨progress.log, rfl⟩

/-- Actions on the files can be done one after the other. -/
theorem bind {next : α → Action Mishap β} {further : α → FileOp β} (h : ActsOnFiles action op)
    (hnext : ∀ value, ActsOnFiles (next value) (further value)) :
    ActsOnFiles (action >>= next) (op >>= further) := by
  intro progress
  have haction := h progress
  cases hop : op progress.world.files with
  | ok value made =>
    rw [hop] at haction
    obtain ⟨log, hrun⟩ := haction
    rw [bind_ok hop, bind_ok hrun]
    exact hnext value
      { progress with world := { progress.world with files := made }, log := log }
  | error error made =>
    rw [hop] at haction
    obtain ⟨log, hrun⟩ := haction
    rw [bind_error hop, bind_error hrun]
    exact ⟨log, rfl⟩

/-- An action may look at the files first. -/
theorem get {next : World → Action Mishap α} {further : FileSystem → FileOp α}
    (h : ∀ world : World, ActsOnFiles (next world) (further world.files)) :
    ActsOnFiles (world >>= next) (EStateM.get >>= further) :=
  fun progress => h progress.world progress

/-- Logging leaves the files as they are. -/
theorem logAll (records : List Record) : ActsOnFiles (logAll records) (Pure.pure ()) := by
  intro progress
  induction records generalizing progress with
  | nil => exact ⟨progress.log, rfl⟩
  | cons record records ih => exact ih (progress.logged record)

/-- An operation that is logged acts on the files as without it. -/
theorem onFilesLogged (op : FileOp α) (records : FileSystem → List Record) :
    ActsOnFiles (onFilesLogged op records) op := by
  have hlogged : ActsOnFiles (Action.onFilesLogged op records)
      (EStateM.get >>= fun _ => op >>= fun value => Pure.pure () >>= fun _ => Pure.pure value) :=
    get fun world => (onFiles op).bind fun value => (logAll _).bind fun _ => pure value
  simp only [pure_bind, bind_pure] at hlogged
  exact hlogged

/-- A tree that is missing is added to the files of the world. -/
theorem addMissing (path : Path) (tree : Tree) :
    ActsOnFiles (addMissing path tree) (FileSystem.addMissing path tree) := by
  refine get fun world => ?_
  split
  · exact onFilesLogged _ _
  · exact pure ()

/-- Actions on the files for several items can be done in their order. -/
theorem forM {work : β → Action Mishap Unit} {further : β → FileOp Unit}
    (h : ∀ item, ActsOnFiles (work item) (further item)) (items : List β) :
    ActsOnFiles (items.forM work) (items.forM further) := by
  induction items with
  | nil => exact pure ()
  | cons item items ih => exact (h item).bind fun _ => ih

/-- A layout is added to the files of the world. -/
theorem layOut (settings : Settings) :
    ActsOnFiles (layOut settings) (FileSystem.layOut settings.layout) := by
  have hadd (item : Path × Tree) :
      ActsOnFiles (Action.addMissing item.1 item.2) (FileSystem.addMissing item.1 item.2) :=
    addMissing item.1 item.2
  have hall := forM hadd settings.layout
  have hlog := logAll [Journal.layoutMade settings.standardDirectories.length]
  have hlogged := hall.bind fun _ => hlog
  rw [bind_pure] at hlogged
  exact hlogged

end ActsOnFiles

end Action

/-! ## The order of the directories -/

namespace FileSystem

variable {settings : Settings} {directories : List Text} {device : Text}

/-- Layouts with a null device are added to an empty file system if there is room for the device.
Then they are all that is there, however the directories are written, nested, ordered and repeated.
Layouts of the same directories lead to file systems in which the same is seen at every path. The
files of a world without any are laid out in the same way. -/
theorem layOut_order_irrelevant (hnames : settings.Names directories device)
    (hdevice : device ≠ []) :
    ((∃ made, layOut settings.layout empty = .ok () made) ↔ NullFits directories device) ∧
      ∀ made, layOut settings.layout empty = .ok () made →
        LaidOut directories device made ∧
          (∀ (others : List Text) (changed : Settings), changed.Names others device →
            (∀ text, text ∈ others ↔ text ∈ directories) →
              ∃ other, layOut changed.layout empty = .ok () other ∧
                ∀ path, other.seen path = made.seen path) ∧
          ∀ progress : Progress, progress.world.files = empty → ∃ log,
            Action.layOut settings progress =
              .ok () { progress with
                world := { progress.world with files := made }, log := log } := by
  have hcases {changed : Settings} {others : List Text} (h : changed.Names others device) :=
    layOut_cases h hdevice
  obtain ⟨hok, herror⟩ := hcases hnames
  have hfits {made : FileSystem} (hmade : layOut settings.layout empty = .ok () made) :
      NullFits directories device := by
    by_contra hfits
    obtain ⟨bare, hbare⟩ := herror hfits
    cases hmade.symm.trans hbare
  refine ⟨⟨fun ⟨made, hmade⟩ => hfits hmade, fun h => ?_⟩, fun made hmade => ?_⟩
  · obtain ⟨made, hmade, -⟩ := hok h
    exact ⟨made, hmade⟩
  · obtain ⟨same, hsame, hlook⟩ := hok (hfits hmade)
    cases hmade.symm.trans hsame
    refine ⟨laidOut_of_look (hfits hmade) hlook, fun others changed hothers hmem => ?_,
      fun progress hempty => ?_⟩
    · have hroom : NullFits others device := fun hslash =>
        (hfits hmade hslash).imp_right (isStandard_congr hmem _).2
      obtain ⟨other, hother, hseen⟩ := (hcases hothers).1 hroom
      refine ⟨other, hother, fun path => ?_⟩
      rw [seen_eq, seen_eq, hseen, hlook, FileMap.laidOut_congr hmem]
    · have hacts := Action.ActsOnFiles.layOut settings progress
      rwa [hempty, hmade] at hacts

/-- The filesystem section of settings that name directories and a null device. -/
def naming (directories : List Text) (device : Text) : Settings :=
  { Settings.builtIn with
    filesystem := .fields [("standard_dirs", .array (directories.map .string)),
      ("null_device", .string device)] }

/-- These are the names that the settings have. -/
theorem names_naming (directories : List Text) (device : Text) :
    (naming directories device).Names directories device :=
  ⟨rfl, rfl⟩

theorem layOut_order_irrelevant_study :
    (∃ made, layOut (naming ["/study/desk/", "/bin"] "/bin/pad/void").layout empty = .ok () made ∧
      (∃ inode entries, made.get (Path.ofText "/study/") = some (.directory inode entries)) ∧
      (∃ inode, made.get (Path.ofText "/bin/pad/void") = some (.null inode)) ∧
      ∃ other,
        layOut (naming ["/bin", "/study/desk/", "/bin"] "/bin/pad/void").layout empty =
            .ok () other ∧
          ∀ path, other.seen path = made.seen path) ∧
      ¬∃ made,
        layOut (naming ["/study/desk/", "/bin"] "/dev/null/").layout empty = .ok () made := by
  obtain ⟨hfits, hlaid⟩ := layOut_order_irrelevant
    (names_naming ["/study/desk/", "/bin"] "/bin/pad/void") (by decide)
  obtain ⟨hslash, -⟩ := layOut_order_irrelevant
    (names_naming ["/study/desk/", "/bin"] "/dev/null/") (by decide)
  obtain ⟨made, hmade⟩ := hfits.2 (by decide)
  obtain ⟨hthere, hothers, -⟩ := hlaid made hmade
  refine ⟨⟨made, hmade, hthere.standard _ (by decide), hthere.null (by decide) (by decide), ?_⟩,
    mt hslash.1 (by decide)⟩
  exact hothers _ _ (names_naming ["/bin", "/study/desk/", "/bin"] _) (by simp [or_comm])

end FileSystem

end MemShell
