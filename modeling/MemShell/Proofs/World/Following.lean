import MemShell.Proofs.World.Steps

/-!
# Following a file

A node with a number lives at one place at most, and the place is carried along by every move of the
node or of a directory above it until the node is dropped. A write is made for the number of a file.
Main statement: whatever has been done since a file was opened, a write into it is seen at the place
where it now lives and nowhere else, so no copy shows it, and a write into a copy is never seen at
the file.
-/

namespace MemShell

/-- A map in which the text of the file at a place has been changed; nothing changes without a
place. -/
def FileMap.rewrite (map : FileMap) (place : Option (List Text)) (change : Text → Text) : FileMap :=
  fun names =>
    if place = some names then
      match map names with
      | .file text => .file (change text)
      | view => view
    else map names

namespace FileSystem

variable {fs after : FileSystem} {inode : Inode} {kind : Kind} {place : Option (List Text)}

/-- The node with a number is at a place and nowhere else; without a place it is nowhere. -/
structure Lives (fs : FileSystem) (inode : Inode) (kind : Kind) (place : Option (List Text)) :
    Prop where
  /-- The number has been given out. -/
  lt_next : inode < fs.disk.next
  /-- The number is met at the place only, and there with its variant. -/
  stat_iff : ∀ names other,
    fs.stat names = some (other, inode) ↔ other = kind ∧ place = some names

/-- A node of a numbered file system lives where it is met. -/
theorem Numbered.lives (h : fs.Numbered) {names : List Text}
    (hstat : fs.stat names = some (kind, inode)) : fs.Lives inode kind (some names) where
  lt_next := h.lt_next hstat
  stat_iff others other := by
    constructor
    · intro hother
      cases h.eq_of_inode hstat hother
      cases hstat.symm.trans hother
      exact ⟨rfl, rfl⟩
    · rintro ⟨rfl, hplace⟩
      cases hplace
      exact hstat

/-- A node lives where it is carried. -/
theorem Carries.lives {carry : List Text → Option (List Text)} (h : fs.Carries carry after)
    (hlives : fs.Lives inode kind place) : after.Lives inode kind (place.bind carry) where
  lt_next := Nat.lt_of_lt_of_le hlives.lt_next h.next_le
  stat_iff names other := by
    constructor
    · intro hstat
      obtain ⟨former, hformer, hcarry⟩ := h.origin hstat hlives.lt_next
      obtain ⟨hkind, rfl⟩ := (hlives.stat_iff former other).1 hformer
      exact ⟨hkind, hcarry⟩
    · rintro ⟨hkind, hplace⟩
      obtain ⟨former, hformer, hcarry⟩ := Option.bind_eq_some_iff.1 hplace
      exact h.stat_eq ((hlives.stat_iff former other).2 ⟨hkind, hformer⟩) hcarry

/-- A text that is written for the number of a file is seen where the file lives and nowhere else.
-/
theorem Lives.look_write (h : fs.Lives inode .file place) (change : Text → Text) :
    (fs.write inode (change (fs.disk.read inode))).look = FileMap.rewrite fs.look place change := by
  have hread := Disk.read_write h.lt_next (change (fs.disk.read inode))
  funext names
  have hsame : (fs.write inode (change (fs.disk.read inode))).stat names = fs.stat names := rfl
  rw [look_eq, hsame, FileMap.rewrite, look_eq]
  split
  · next hplace =>
    rw [(h.stat_iff names .file).2 ⟨rfl, hplace⟩, View.ofStat, write, hread, if_pos rfl]
    rfl
  · next hplace =>
    refine View.ofStat_congr fun kind number hstat => ?_
    have hne : number ≠ inode := by
      rintro rfl
      exact hplace ((h.stat_iff names kind).1 hstat).2
    exact (hread number).trans (if_neg hne)

/-- A text that is written for another number is not seen where a file lives. -/
theorem Lives.look_write_of_ne (h : fs.Lives inode .file place) {other : Inode}
    (hne : other ≠ inode) (text : Text) {names : List Text} (hplace : place = some names) :
    (fs.write other text).look names = fs.look names := by
  have hstat := (h.stat_iff names .file).2 ⟨rfl, hplace⟩
  have hsame : (fs.write other text).stat names = fs.stat names := rfl
  rw [look_eq, hsame, look_eq, hstat]
  exact congrArg View.file (fs.disk.read_write_of_ne hne.symm text)

end FileSystem

namespace World

variable {world : World} {inode : Inode} {kind : Kind}

/-- A node lives where a run carries it. -/
theorem lives_run {place : Option (List Text)} (h : world.files.Lives inode kind place)
    (steps : List Step) :
    (world.run steps).files.Lives inode kind (place.bind (world.followAll steps)) := by
  induction steps generalizing world place with
  | nil =>
    have hplace : place.bind (world.followAll []) = place := Option.bind_fun_some place
    rwa [hplace]
  | cons step steps ih =>
    have hplace : place.bind (world.followAll (step :: steps)) =
        (place.bind (world.follow step)).bind ((world.step step).followAll steps) :=
      (Option.bind_assoc _ _ _).symm
    rw [hplace]
    exact ih ((world.step_spec step).1.lives h)

/-- A step writes into the file with a number, or empties it: its text changes by a function. -/
inductive Writes (world : World) (inode : Inode) : Step → (Text → Text) → Prop
  /-- A text is written over what stands at the position of a stream. -/
  | write {handle : Handle} {pointer : Nat}
    (h : world.endpoints[handle]? = some (.stream (.file inode pointer))) (text : Text) :
    Writes world inode (.write handle text) fun contents => overwrite contents pointer text
  /-- A line is written over what stands at the position of a stream. -/
  | writeLine {handle : Handle} {pointer : Nat}
    (h : world.endpoints[handle]? = some (.stream (.file inode pointer))) (text : Text) :
    Writes world inode (.writeLine handle text) fun contents =>
      overwrite contents pointer (text ++ ['\n'])
  /-- The file is emptied when it is opened to be written. -/
  | truncate {target : Path} (h : world.files.get target = some (.file inode)) :
    Writes world inode (.call (.openAt target .write)) fun _ => []

/-- A write into a file is made for its number. -/
theorem Writes.files_eq {step : Step} {change : Text → Text} (h : world.Writes inode step change) :
    (world.step step).files =
      world.files.write inode (change (world.files.disk.read inode)) := by
  cases h with
  | write h text =>
    rw [World.step, World.write, h]
    rfl
  | writeLine h text =>
    rw [World.step, World.writeLine, World.write, h]
    rfl
  | @truncate target h =>
    have hopen : FileSystem.openAt target .write world.files =
        FileSystem.openNode .write (.file inode) world.files := by
      rw [FileSystem.openAt, FileOp.get_bind, h]
    rw [World.step, World.opened, hopen]
    rfl

/-- Whatever has been done since a file was opened: the handle is still on it, it lives where the
moves have carried it and nowhere else, a write into it is seen there and nowhere else, and a write
into any other file, such as a copy of it, is not seen there. -/
theorem writes_follow_file {keys : List Text} {before : List Step} {target : Path} {mode : OpenMode}
    (hopened : (((blank keys).run before).opened target mode).IsOn
      ((blank keys).run before).endpoints.length inode) (later : List Step) :
    let opened := ((blank keys).run before).opened target mode
    let now := opened.run later
    let place := opened.followAll later target.parts
    now.IsOn ((blank keys).run before).endpoints.length inode ∧
    (∀ names kind, now.files.stat names = some (kind, inode) ↔ kind = .file ∧ place = some names) ∧
    (∀ step change, now.Writes inode step change →
      (now.step step).files.look = FileMap.rewrite now.files.look place change) ∧
    (∀ other step change, other ≠ inode → now.Writes other step change →
      ∀ names, place = some names → (now.step step).files.look names = now.files.look names) := by
  intro opened now place
  have hempty : (blank keys).files.Numbered := FileSystem.numbered_empty
  have hnumbered : opened.files.Numbered :=
    (step_spec _ (.call (.openAt target mode))).2 (numbered_run hempty before)
  have hlives : now.files.Lives inode .file place :=
    lives_run (hnumbered.lives (stat_of_isOn_opened hopened)) later
  refine ⟨hopened.run later, hlives.stat_iff, fun step change hwrites => ?_,
    fun other step change hother hwrites names hplace => ?_⟩
  · rw [hwrites.files_eq]
    exact hlives.look_write change
  · rw [hwrites.files_eq]
    exact hlives.look_write_of_ne hother _ hplace

/-- A note is made in a home directory. -/
def noting : List Step := [.call (.add (Path.ofText "/home/note") (.file "first") true)]

/-- The home directory is copied and then moved. -/
def movingHome : List Step :=
  [.call (.copy (Path.ofText "/home/") (Path.ofText "/old") true),
    .call (.move (Path.ofText "/home") (Path.ofText "/work"))]

theorem writes_follow_file_moved :
    let opened := ((blank []).run noting).opened (Path.ofText "/home/note") .append
    let after := (opened.run movingHome).step (.write 0 ", second")
    opened.IsOn ((blank []).run noting).endpoints.length 2 ∧
      (opened.run movingHome).Writes 2 (.write 0 ", second") (overwrite · 5 ", second") ∧
      after.files.look ["work", "note"] = .file "first, second" ∧
      after.files.look ["old", "note"] = .file "first" ∧
      after.files.look ["home", "note"] = .absent := by
  intro opened after
  have hopened : opened.IsOn ((blank []).run noting).endpoints.length 2 := ⟨5, by rfl⟩
  have hwrites : (opened.run movingHome).Writes 2 (.write 0 ", second")
      (overwrite · 5 ", second") := .write (by rfl) _
  obtain ⟨-, -, hseen, -⟩ :=
    @writes_follow_file 2 [] noting (Path.ofText "/home/note") .append hopened movingHome
  have hlook := hseen _ _ hwrites
  refine ⟨hopened, hwrites, ?_⟩
  rw [hlook]
  decide +kernel

end World

end MemShell
