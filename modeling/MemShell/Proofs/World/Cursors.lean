import MemShell.Proofs.Files.Growing
import MemShell.Proofs.Stream.Reading
import MemShell.Proofs.World.Steps

/-!
# Cursors

A stream on a file stands inside the text of the file when it is made, and reading and writing
through it leave it inside. Nothing that is done to other nodes and no write through another stream
makes the text shorter; but a file is emptied when it is opened to be written, and then the streams
that are on it already stay where they are. Main statement: all streams of a run stand inside their
files after every step exactly if no file is emptied while a stream on it has left the start.
-/

namespace MemShell

/-! ## Reading and writing -/

namespace Stream

variable {disk : Disk} {stream : Stream}

/-- A way of reading goes on by no more than can still be read. -/
def Moderate (read : Disk → Stream → Text × Stream) : Prop :=
  ∀ disk stream, ∃ count ≤ (stream.unread disk).length, (read disk stream).2 = stream.advance count

/-- Reading goes on by what is read. -/
theorem moderate_read (count : Option Int) : Moderate fun disk stream => stream.read disk count :=
  fun disk stream => ⟨_, (prefix_takeFirst (stream.unread disk) count).length_le, rfl⟩

/-- Reading a line goes on by what is read. -/
theorem moderate_readLine : Moderate readLine :=
  fun disk stream => ⟨_, (prefix_takeFirst (stream.unread disk) _).length_le, rfl⟩

/-- Looking at what could be read stays where it is. -/
theorem moderate_peek (look : Disk → Stream → Text) :
    Moderate fun disk stream => (look disk stream, stream) := by
  intro disk stream
  refine ⟨0, Nat.zero_le _, ?_⟩
  cases stream <;> rfl

/-- A stream stays inside its file when it goes on by no more than can still be read. -/
theorem Inside.advance (h : stream.Inside disk) {count : Nat}
    (hcount : count ≤ (stream.unread disk).length) : (stream.advance count).Inside disk := by
  cases stream with
  | file inode pointer =>
    obtain ⟨hinode, hpointer⟩ := h
    rw [unread, List.length_drop] at hcount
    refine ⟨hinode, ?_⟩
    omega
  | buffer unread | null => trivial

/-- A stream stays inside its file when it is written to, and no text becomes shorter. -/
theorem Inside.write (h : stream.Inside disk) (text : Text) :
    (stream.write disk text).1.Inside (stream.write disk text).2 ∧
      disk.Grows (stream.write disk text).2 := by
  cases stream with
  | file inode pointer =>
    obtain ⟨hinode, hpointer⟩ := h
    have hlength : (disk.read inode).length ≤ (overwrite (disk.read inode) pointer text).length := by
      rw [overwrite, List.length_append, List.length_append, List.length_take, List.length_drop]
      omega
    refine ⟨⟨?_, ?_⟩, .write hlength⟩
    · rw [Stream.write, Disk.next_write]
      exact hinode
    · rw [Stream.write, Disk.read_write hinode, if_pos rfl]
      exact Nat.min_le_right _ _
  | buffer unread | null => exact ⟨trivial, .refl disk⟩

end Stream

/-- A call other than opening a file makes no text shorter, whether it succeeds or fails. -/
theorem FileCall.grows_after {call : FileCall} (h : ∀ target mode, call ≠ .openAt target mode)
    (fs : FileSystem) : fs.disk.Grows (call.after fs).disk := by
  have hkeeps : FileOp.Keeps (FileSystem.GrownFrom fs.disk) call.run fun _ => True := by
    cases call with
    | add target tree createParents =>
      exact (FileSystem.grows_add target tree createParents).discard
    | copy source destination recursive =>
      exact FileSystem.grows_copy source destination recursive
    | move source destination => exact FileSystem.grows_move source destination
    | remove target => exact FileSystem.grows_modify fun made => made.disk_remove target
    | openAt target mode => exact absurd rfl (h target mode)
    | moveMappings sources destination =>
      refine FileOp.keeps_get.bind fun made _ => ?_
      cases made.moveMappings sources destination with
      | ok pairs => exact FileOp.keeps_pure trivial
      | error error => exact FileOp.keeps_throw error
  have hrun := hkeeps fs (.refl _)
  rw [after]
  cases hcall : call.run fs with
  | ok value made =>
    rw [hcall] at hrun
    exact hrun.1
  | error error made =>
    rw [hcall] at hrun
    exact hrun

namespace World

/-! ## Uses -/

/-- What is done with files and streams. -/
inductive Use
  /-- A step of the world. -/
  | step (step : Step)
  /-- Looks at what reading through a handle would give. -/
  | peek (handle : Handle) (count : Option Int)
  /-- Looks at the line that reading through a handle would give. -/
  | peekLine (handle : Handle)
  /-- Opens the file with a number, wherever it is by then and whether or not it has been removed. -/
  | openFile (inode : Inode) (mode : OpenMode)
  /-- Makes a stream on the file with a number from a position on, which may lie outside. -/
  | place (inode : Inode) (pointer : Int)

/-- The world after a stream has been opened by an operation: there is a new handle for it, unless
the operation fails. -/
def openedBy (op : FileOp Stream) (world : World) : World :=
  match op world.files with
  | .ok stream files => (newEndpoint (.stream stream) { world with files := files }).2
  | .error _ files => { world with files := files }

/-- The world after a use; a number that has not been given out is that of no file. -/
def use (world : World) : Use → World
  | .step step => world.step step
  | .peek handle count =>
    (world.readWith (fun disk stream => (stream.peek disk count, stream)) handle).2
  | .peekLine handle =>
    (world.readWith (fun disk stream => (stream.peekLine disk, stream)) handle).2
  | .openFile inode mode =>
    if inode < world.files.disk.next then
      world.openedBy (FileSystem.openNode mode (.file inode))
    else world
  | .place inode pointer =>
    if inode < world.files.disk.next then
      match Stream.onFile world.files.disk inode pointer with
      | .ok stream => (newEndpoint (.stream stream) world).2
      | .error _ => world
    else world

/-- The world after several uses, one after the other. -/
def useAll (world : World) (uses : List Use) : World := uses.foldl use world

/-- Every stream on a file stands inside the text of the file. -/
def CursorsInside (world : World) : Prop :=
  ∀ inode pointer, .stream (.file inode pointer) ∈ world.endpoints →
    pointer ≤ (world.files.disk.read inode).length

/-- A use empties the file with a number. -/
inductive Empties (world : World) : Use → Inode → Prop
  /-- The file at a path is opened to be written. -/
  | openAt {target : Path} {inode : Inode} (h : world.files.get target = some (.file inode)) :
    Empties world (.step (.call (.openAt target .write))) inode
  /-- The file is opened by its number to be written. -/
  | openFile {inode : Inode} (h : inode < world.files.disk.next) :
    Empties world (.openFile inode .write) inode

/-- A use empties a file while a stream on it has left the start. -/
def Strands (world : World) (use : Use) : Prop :=
  ∃ inode pointer, world.Empties use inode ∧
    .stream (.file inode pointer) ∈ world.endpoints ∧ pointer ≠ 0

/-- A file that is there is emptied when it is opened to be written. -/
theorem openAt_write_of_file {world : World} {target : Path} {inode : Inode}
    (h : world.files.get target = some (.file inode)) :
    FileSystem.openAt target .write world.files =
      .ok (.file inode 0) (world.files.write inode []) := by
  rw [FileSystem.openAt, FileOp.get_bind, h]
  rfl

/-- All streams on a file stand at the start if a use that empties it strands none of them. -/
theorem Empties.eq_zero {world : World} {use : Use} {inode : Inode} (h : world.Empties use inode)
    (hsafe : ¬world.Strands use) {pointer : Nat}
    (hmem : .stream (.file inode pointer) ∈ world.endpoints) : pointer = 0 := by
  refine Decidable.byContradiction fun hpointer => ?_
  exact hsafe ⟨inode, pointer, h, hmem, hpointer⟩

/-! ## The invariant -/

/-- All numbers of nodes and streams have been given out, and all streams stand inside. -/
structure Sound (world : World) : Prop where
  /-- The numbers of the nodes are apart. -/
  numbered : world.files.Numbered
  /-- Every stream stands inside its file. -/
  inside : ∀ stream, .stream stream ∈ world.endpoints → stream.Inside world.files.disk

variable {world : World}

/-- In a sound world every cursor is inside. -/
theorem Sound.cursorsInside (h : world.Sound) : world.CursorsInside :=
  fun _ _ hmem => (h.inside _ hmem).2

/-- A world stays sound when no text becomes shorter. -/
theorem Sound.grow (h : world.Sound) {files : FileSystem} (hnumbered : files.Numbered)
    (hgrows : world.files.disk.Grows files.disk) : { world with files := files }.Sound where
  numbered := hnumbered
  inside stream hmem := (h.inside stream hmem).mono hgrows

/-- A world stays sound when a stream that stands inside its file is put behind a new handle. -/
theorem Sound.newEndpoint (h : world.Sound) {stream : Stream}
    (hstream : stream.Inside world.files.disk) :
    (newEndpoint (.stream stream) world).2.Sound where
  numbered := h.numbered
  inside other hmem := by
    rcases List.mem_append.1 hmem with hmem | hmem
    · exact h.inside other hmem
    · cases List.mem_singleton.1 hmem
      exact hstream

/-- A world stays sound when a stream behind a handle moves inside its file, and no text becomes
shorter. -/
theorem Sound.putStream (h : world.Sound) {handle : Handle} {stream : Stream} {disk : Disk}
    (hnumbered : { world.files with disk := disk }.Numbered)
    (hgrows : world.files.disk.Grows disk) (hstream : stream.Inside disk) :
    (world.putStream handle stream disk).Sound where
  numbered := hnumbered
  inside other hmem := by
    rcases List.mem_or_eq_of_mem_set hmem with hmem | heq
    · exact (h.inside other hmem).mono hgrows
    · cases heq
      exact hstream

/-- A world stays sound when it is written to. -/
theorem Sound.write (h : world.Sound) (handle : Handle) (text : Text) :
    (world.write handle text).Sound := by
  have hnumbered := (world.step_spec (.write handle text)).2 h.numbered
  rw [World.step] at hnumbered
  rw [World.write] at hnumbered ⊢
  split at hnumbered
  · next stream hstream =>
    obtain ⟨hinside, hgrows⟩ := (h.inside stream (List.mem_of_getElem? hstream)).write text
    exact h.putStream hnumbered hgrows hinside
  · exact ⟨h.numbered, h.inside⟩
  · exact h

/-- A world stays sound when it is read from. -/
theorem Sound.readWith (h : world.Sound) {read : Disk → Stream → Text × Stream}
    (hread : Stream.Moderate read) (handle : Handle) : (world.readWith read handle).2.Sound := by
  rw [World.readWith]
  split
  · next stream hstream =>
    obtain ⟨count, hcount, hadvance⟩ := hread world.files.disk stream
    refine h.putStream h.numbered (.refl _) ?_
    rw [hadvance]
    exact (h.inside stream (List.mem_of_getElem? hstream)).advance hcount
  · exact h

/-- A world stays sound when a use empties a file and strands no stream. -/
theorem Sound.empty (h : world.Sound) {use : Use} {inode : Inode}
    (hempties : world.Empties use inode) (hsafe : ¬world.Strands use) :
    { world with files := world.files.write inode [] }.Sound where
  numbered := h.numbered.write inode []
  inside stream hmem := by
    cases stream with
    | file other pointer =>
      obtain ⟨hother, hpointer⟩ := h.inside _ hmem
      refine ⟨Nat.lt_of_lt_of_eq hother (Disk.next_write _ _ _).symm, ?_⟩
      change pointer ≤ ((world.files.disk.write inode []).read other).length
      by_cases hsame : other = inode
      · subst hsame
        rw [hempties.eq_zero hsafe hmem]
        exact Nat.zero_le _
      · rwa [Disk.read_write_of_ne _ hsame]
    | buffer unread | null => trivial

/-- A world stays sound when a use that strands no stream empties a file and opens it. -/
theorem Sound.reopen (h : world.Sound) {use : Use} {inode : Inode}
    (hempties : world.Empties use inode) (hsafe : ¬world.Strands use)
    (hinode : inode < world.files.disk.next) :
    (World.newEndpoint (.stream (.file inode 0))
      { world with files := world.files.write inode [] }).2.Sound := by
  refine (h.empty hempties hsafe).newEndpoint ⟨?_, Nat.zero_le _⟩
  exact Nat.lt_of_lt_of_eq hinode (Disk.next_write _ _ _).symm

/-- A world stays sound when a stream is opened by an operation that gives a stream inside its file,
keeps the numbers apart and makes no text shorter, or fails and changes nothing. -/
theorem Sound.openedBy (h : world.Sound) {op : FileOp Stream}
    (hop : op.AllOrNothing world.files world.files fun stream after => after.Numbered ∧
      stream.Inside after.disk ∧ world.files.disk.Grows after.disk) : (world.openedBy op).Sound := by
  rw [World.openedBy]
  obtain ⟨stream, after, hrun, hnumbered, hstream, hgrows⟩ | ⟨error, hrun⟩ := hop.ok_or_error
  · rw [hrun]
    exact (h.grow hnumbered hgrows).newEndpoint hstream
  · rw [hrun]
    exact h

/-- A world stays sound when a file is opened at a path, unless the file is emptied while a stream on
it has left the start. -/
theorem Sound.opened (h : world.Sound) {target : Path} {mode : OpenMode}
    (hsafe : ¬world.Strands (.step (.call (.openAt target mode)))) :
    (world.opened target mode).Sound := by
  by_cases hempties : ∃ inode, mode = .write ∧ world.files.get target = some (.file inode)
  · obtain ⟨inode, rfl, hget⟩ := hempties
    have hstat : world.files.stat target.parts = some (.file, inode) :=
      Option.map_eq_some_iff.2 ⟨_, FileSystem.find_of_get hget, rfl⟩
    rw [World.opened, openAt_write_of_file hget]
    exact h.reopen (.openAt hget) hsafe (h.numbered.lt_next hstat)
  · have hleaves := FileSystem.leaves_openAt_inside h.numbered target mode
    have hopen : (FileSystem.openAt target mode).AllOrNothing world.files world.files
        fun stream after => after.Numbered ∧ stream.Inside after.disk ∧
          world.files.disk.Grows after.disk := by
      rw [FileOp.AllOrNothing]
      obtain ⟨stream, after, hrun, hbecomes⟩ | ⟨error, hrun⟩ :=
        (FileSystem.openAt_becomes target mode world.files).ok_or_error
      · obtain ⟨hstream, hgrows⟩ := hleaves stream after hrun
        rw [hrun]
        refine ⟨(hbecomes h.numbered).1, hstream, hgrows fun inode hmode hget => ?_⟩
        exact hempties ⟨inode, hmode, hget⟩
      · rw [hrun]
    exact h.openedBy hopen

/-- A world stays sound when a file is opened by its number, unless the file is emptied while a
stream on it has left the start. -/
theorem Sound.openFile (h : world.Sound) {inode : Inode} {mode : OpenMode}
    (hsafe : ¬world.Strands (.openFile inode mode)) :
    (world.use (.openFile inode mode)).Sound := by
  rw [World.use]
  split
  · next hinode =>
    have hopened := FileSystem.inside_opened hinode mode
    cases mode with
    | write => exact h.reopen (.openFile hinode) hsafe hinode
    | read | append => exact h.newEndpoint hopened
  · exact h

/-- A world stays sound when a stream is made from a position on: a position outside is refused. -/
theorem Sound.place (h : world.Sound) (inode : Inode) (pointer : Int) :
    (world.use (.place inode pointer)).Sound := by
  rw [World.use]
  split
  · next hinode =>
    by_cases houtside : pointer < 0 ∨ pointer > (world.files.disk.read inode).length
    · rw [Stream.onFile, if_pos houtside]
      exact h
    · rw [Stream.onFile, if_neg houtside]
      refine h.newEndpoint ⟨hinode, ?_⟩
      omega
  · exact h

/-- A use that strands no stream leaves a sound world sound. -/
theorem Sound.use (h : world.Sound) {use : Use} (hsafe : ¬world.Strands use) :
    (world.use use).Sound := by
  cases use with
  | step step =>
    cases step with
    | call call =>
      by_cases hopen : ∃ target mode, call = .openAt target mode
      · obtain ⟨target, mode, rfl⟩ := hopen
        exact h.opened hsafe
      · have hcall : ∀ target mode, call ≠ .openAt target mode :=
          fun target mode heq => hopen ⟨target, mode, heq⟩
        have hstep : world.step (.call call) = { world with files := call.after world.files } := by
          cases call with
          | openAt target mode => exact absurd rfl (hcall target mode)
          | add | copy | move | remove | moveMappings => rfl
        rw [World.use, hstep]
        exact h.grow ((call.after_spec world.files).2 h.numbered) (FileCall.grows_after hcall _)
    | write handle text => exact h.write handle text
    | writeLine handle text => exact h.write handle _
    | read handle count => exact h.readWith (Stream.moderate_read count) handle
    | readLine handle => exact h.readWith Stream.moderate_readLine handle
  | peek handle count => exact h.readWith (Stream.moderate_peek fun disk s => s.peek disk count) handle
  | peekLine handle => exact h.readWith (Stream.moderate_peek fun disk s => s.peekLine disk) handle
  | openFile inode mode => exact h.openFile hsafe
  | place inode pointer => exact h.place inode pointer

/-- A stream that has left the start stands outside once its file has been emptied. -/
theorem Sound.not_cursorsInside_use (h : world.Sound) {use : Use} (hstrands : world.Strands use) :
    ¬(world.use use).CursorsInside := by
  obtain ⟨inode, pointer, hempties, hmem, hpointer⟩ := hstrands
  have hemptied : (world.use use).files.disk = world.files.disk.write inode [] ∧
      .stream (.file inode pointer) ∈ (world.use use).endpoints := by
    cases hempties with
    | @openAt target _ hget =>
      rw [World.use, World.step, World.opened, openAt_write_of_file hget]
      exact ⟨rfl, List.mem_append_left _ hmem⟩
    | openFile hinode =>
      rw [World.use, if_pos hinode]
      exact ⟨rfl, List.mem_append_left _ hmem⟩
  intro hinside
  have hle := hinside inode pointer hemptied.2
  have hinode := (h.inside _ hmem).1
  rw [hemptied.1, Disk.read_write hinode, if_pos rfl] at hle
  exact hpointer (Nat.le_zero.1 hle)

/-! ## Runs -/

/-- Before and after every use of a run from a sound world all streams stand inside the texts of
their files, exactly if no use of the run empties a file while a stream on it has left the start. -/
theorem Sound.cursorsInside_iff (h : world.Sound) (uses : List Use) :
    (∀ front, front <+: uses → (world.useAll front).CursorsInside) ↔
      ∀ front use, front ++ [use] <+: uses → ¬(world.useAll front).Strands use := by
  induction uses generalizing world with
  | nil =>
    constructor
    · intro _ front use hfront
      exact absurd (List.prefix_nil.1 hfront) (by simp)
    · intro _ front hfront
      rw [List.prefix_nil.1 hfront]
      exact h.cursorsInside
  | cons use uses ih =>
    by_cases hstrands : world.Strands use
    · refine iff_of_false (fun hall => ?_) fun hnone => ?_
      · have hafter : (world.use use).CursorsInside :=
          hall [use] (List.cons_prefix_cons.2 ⟨rfl, List.nil_prefix⟩)
        exact h.not_cursorsInside_use hstrands hafter
      · exact hnone [] use (List.cons_prefix_cons.2 ⟨rfl, List.nil_prefix⟩) hstrands
    · have hrest := ih (h.use hstrands)
      constructor
      · intro hall front other hfront
        cases front with
        | nil =>
          obtain ⟨rfl, -⟩ := List.cons_prefix_cons.1 hfront
          exact hstrands
        | cons first front =>
          obtain ⟨rfl, hbelow⟩ := List.cons_prefix_cons.1 hfront
          refine hrest.1 (fun early hearly => ?_) front other hbelow
          exact hall (first :: early) (List.cons_prefix_cons.2 ⟨rfl, hearly⟩)
      · intro hnone front hfront
        cases front with
        | nil => exact h.cursorsInside
        | cons first front =>
          obtain ⟨rfl, hbelow⟩ := List.cons_prefix_cons.1 hfront
          refine hrest.2 (fun early other hearly => ?_) front hbelow
          exact hnone (first :: early) other (List.cons_prefix_cons.2 ⟨rfl, hearly⟩)

/-- A world with a file and no streams. -/
def draft : World := { blank [] with files := .ofEntries [("f", .file "abc")] }

/-- A world without streams is sound if its nodes are numbered. -/
theorem sound_draft : draft.Sound where
  numbered := FileSystem.numbered_ofEntries [("f", .file "abc")]
  inside _ hmem := absurd hmem List.not_mem_nil

/-- A stream that has read the file and one that appends to it go on after the file is removed. -/
def revising : List Use :=
  [.step (.call (.openAt (Path.ofText "/f") .read)), .step (.read 0 none),
    .step (.call (.openAt (Path.ofText "/f") .append)), .step (.call (.remove (Path.ofText "/f"))),
    .step (.write 1 "de"), .openFile 1 .append, .peek 0 (some (-1)), .step (.read 0 (some 1))]

theorem cursorsInside_iff_revising :
    draft.Sound ∧ (draft.useAll revising).CursorsInside ∧
      (draft.useAll revising).endpoints =
        [.stream (.file 1 4), .stream (.file 1 5), .stream (.file 1 5)] ∧
      (draft.useAll revising).files.disk.read 1 = "abcde" := by
  have hnone : ∀ front use, front ++ [use] <+: revising → ¬(draft.useAll front).Strands use := by
    rintro front use hprefix ⟨inode, pointer, hempties, -, -⟩
    have hmem : use ∈ revising := hprefix.subset (by simp)
    cases hempties <;> simp [revising] at hmem
  have hinside := (sound_draft.cursorsInside_iff revising).2 hnone revising (List.prefix_refl _)
  exact ⟨sound_draft, hinside, by decide +kernel⟩

/-- A stream at the end of a file stays there when the file is opened to be written, and stands
outside the text, which is empty then. -/
theorem cursor_stays_behind :
    let emptied := draft.useAll [.step (.call (.openAt (Path.ofText "/f") .append)),
      .step (.call (.openAt (Path.ofText "/f") .write))]
    emptied.endpoints = [.stream (.file 1 3), .stream (.file 1 0)] ∧
      emptied.files.disk.read 1 = [] ∧ ¬emptied.CursorsInside := by
  intro emptied
  have hends : emptied.endpoints = [.stream (.file 1 3), .stream (.file 1 0)] := by decide +kernel
  have hread : emptied.files.disk.read 1 = [] := by decide +kernel
  refine ⟨hends, hread, fun hinside => ?_⟩
  have hle := hinside 1 3 (by rw [hends]; exact List.mem_cons_self)
  rw [hread] at hle
  exact absurd hle (by decide)

end World

end MemShell
