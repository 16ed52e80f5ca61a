import MemShell.Proofs.Files.Preparation
import MemShell.Proofs.World.Steps
import MemShell.Shell.Line

/-!
# Redirects

A redirect opens its file, which gets the next handle, and puts the handle in place of a stream of
the command. The redirects of a command are carried out one after the other, each in the world that
the one before it has left, up to the first one whose file cannot be opened. What this comes to
depends on the world only.
-/

namespace MemShell

/-- The path that a redirect leads to from a directory. -/
def Redirect.path (cwd : Text) (redirect : Redirect) : Path :=
  Path.interpret cwd [redirect.target]

/-- The steps that open the files of redirects from a directory. -/
def openings (cwd : Text) (redirects : List (Int × Redirect)) : List World.Step :=
  redirects.map fun entry => .call (.openAt (entry.2.path cwd) entry.2.mode.openMode)

namespace World

variable {world : World} {target : Path} {inode : Inode}

/-- A file that can be opened gets a new handle for its stream. -/
theorem opened_ok {mode : OpenMode} {stream : Stream} {files : FileSystem}
    (hopen : FileSystem.openAt target mode world.files = .ok stream files) :
    world.opened target mode =
      { world with files := files, endpoints := world.endpoints ++ [.stream stream] } := by
  rw [opened, hopen]
  rfl

/-- A file that is opened to append gets a stream at its end, and nothing else changes. -/
theorem opened_append (h : world.files.get target = some (.file inode)) :
    FileSystem.openAt target .append world.files =
        .ok (.file inode (world.files.disk.read inode).length) world.files ∧
      world.opened target .append = { world with
        endpoints := world.endpoints ++
          [.stream (.file inode (world.files.disk.read inode).length)] } := by
  have hopen : FileSystem.openAt target .append world.files =
      .ok (.file inode (world.files.disk.read inode).length) world.files := by
    rw [FileSystem.openAt, FileOp.get_bind, h]
    rfl
  exact ⟨hopen, opened_ok hopen⟩

/-- The files of redirects can all be opened, one after the other. -/
def OpensAll (cwd : Text) (world : World) : List (Int × Redirect) → Prop
  | [] => True
  | (_, redirect) :: redirects =>
    (∃ stream files, FileSystem.openAt (redirect.path cwd) redirect.mode.openMode world.files =
      .ok stream files) ∧
      (world.opened (redirect.path cwd) redirect.mode.openMode).OpensAll cwd redirects

/-- A file that can be opened to append can be opened again and again. -/
theorem opensAll_append {cwd : Text} {redirects : List (Int × Redirect)}
    (hredirects : ∀ entry ∈ redirects, entry.2.mode = .append ∧ entry.2.path cwd = target)
    (hget : world.files.get target = some (.file inode)) : world.OpensAll cwd redirects := by
  induction redirects generalizing world with
  | nil => trivial
  | cons entry redirects ih =>
    obtain ⟨⟨hmode, hpath⟩, hrest⟩ := List.forall_mem_cons.1 hredirects
    obtain ⟨hopen, hopened⟩ := opened_append hget
    rw [OpensAll, hmode, hpath]
    refine ⟨⟨_, _, hopen⟩, ih hrest ?_⟩
    change (world.opened target .append).files.get target = some (.file inode)
    rw [hopened]
    exact hget

end World

/-- The streams of a command whose redirects get handles one after the other from a first one on. -/
def StreamSet.redirectedFrom (streams : StreamSet) (first : Handle) :
    List (Int × Redirect) → StreamSet
  | [] => streams
  | (number, _) :: redirects =>
    (streams.redirected number first).redirectedFrom (first + 1) redirects

/-! ## Carrying out redirects -/

namespace World

/-- The streams of a command whose redirects are carried out one after the other, and the world that
they leave. The first file that cannot be opened ends it. -/
def carryOut (cwd : Text) :
    World → StreamSet → List (Int × Redirect) → Except FileError StreamSet × World
  | world, streams, [] => (.ok streams, world)
  | world, streams, (number, redirect) :: redirects =>
    match FileSystem.openAt (redirect.path cwd) redirect.mode.openMode world.files with
    | .error error _ => (.error error, world)
    | .ok .. => carryOut cwd (world.opened (redirect.path cwd) redirect.mode.openMode)
      (streams.redirected number world.endpoints.length) redirects

variable {world : World} {cwd : Text} {front redirects : List (Int × Redirect)}

/-- Redirects are carried out one list after the other if the files of the first one can all be
opened. -/
theorem carryOut_append (h : world.OpensAll cwd front) (streams : StreamSet)
    (redirects : List (Int × Redirect)) :
    carryOut cwd world streams (front ++ redirects) =
      carryOut cwd (world.run (openings cwd front))
        (streams.redirectedFrom world.endpoints.length front) redirects := by
  induction front generalizing world streams with
  | nil => rfl
  | cons entry front ih =>
    obtain ⟨⟨stream, files, hopen⟩, hrest⟩ := h
    have hlength : (world.opened (entry.2.path cwd) entry.2.mode.openMode).endpoints.length =
        world.endpoints.length + 1 := by
      rw [opened_ok hopen, List.length_append, List.length_singleton]
    rw [List.cons_append, carryOut, hopen]
    refine (ih hrest _).trans ?_
    rw [hlength]
    rfl

/-- Redirects whose files can all be opened get the next handles. -/
theorem carryOut_ok (h : world.OpensAll cwd redirects) (streams : StreamSet) :
    carryOut cwd world streams redirects =
      (.ok (streams.redirectedFrom world.endpoints.length redirects),
        world.run (openings cwd redirects)) := by
  have happend := carryOut_append h streams []
  rwa [List.append_nil] at happend

end World

namespace Action

variable {ε : Type}

/-- Looking at the world gives the world and changes nothing. -/
theorem world_ok (progress : Progress) :
    (world : Action ε World) progress = .ok progress.world progress := rfl

/-- Logging several records changes the log only. -/
theorem logAll_ok (records : List Record) (progress : Progress) :
    ∃ log, (logAll records : Action ε Unit) progress = .ok () { progress with log := log } := by
  induction records generalizing progress with
  | nil => exact ⟨progress.log, rfl⟩
  | cons record records ih => exact ih (progress.logged record)

section Attempt

variable {α δ : Type} {action : Action ε α} {progress after : Progress}

/-- Work that fails is taken as its error. -/
theorem attempt_error {error : ε} (h : action progress = .error error after) :
    (attempt action : Action δ (Except ε α)) progress = .ok (.error error) after := by
  rw [attempt, h]

/-- Only work that succeeds is taken as a value. -/
theorem ok_of_attempt {value : α}
    (h : (attempt action : Action δ (Except ε α)) progress = .ok (.ok value) after) :
    action progress = .ok value after := by
  rw [attempt] at h
  cases hrun : action progress with
  | ok value progress =>
    rw [hrun] at h
    cases h
    rfl
  | error error progress =>
    rw [hrun] at h
    cases h

end Attempt

section Open

variable {path : Path} {mode : OpenMode} {progress : Progress} {files : FileSystem}

/-- A file that can be opened gets a new handle. -/
theorem openFile_ok {stream : Stream}
    (hopen : FileSystem.openAt path mode progress.world.files = .ok stream files) :
    ∃ log, openFile path mode progress = .ok progress.world.endpoints.length
      { progress with world := progress.world.opened path mode, log := log } := by
  have hfiles : onFiles (FileSystem.openAt path mode) progress =
      .ok stream { progress with world := { progress.world with files := files } } := by
    have hrun : (FileSystem.openAt path mode).run progress.world.files = .ok stream files := hopen
    rw [onFiles, hrun]
  obtain ⟨log, hlog⟩ := @logAll_ok Mishap (Journal.opened progress.world.files path)
    { progress with world := { progress.world with files := files } }
  have hstream : onFilesLogged (FileSystem.openAt path mode) (Journal.opened · path) progress =
      .ok stream { progress with world := { progress.world with files := files }, log := log } := by
    rw [onFilesLogged, bind_ok (world_ok progress), bind_ok hfiles, bind_ok hlog]
    rfl
  rw [World.opened_ok hopen, openFile, bind_ok hstream]
  exact ⟨log, rfl⟩

/-- A file that cannot be opened changes nothing. -/
theorem openFile_error {error : FileError}
    (hopen : FileSystem.openAt path mode progress.world.files = .error error files) :
    openFile path mode progress = .error (.file error) progress := by
  have hsame : files = progress.world.files := by
    have hcall := FileSystem.openAt_becomes path mode progress.world.files
    rwa [FileOp.AllOrNothing, hopen] at hcall
  have hfiles : onFiles (FileSystem.openAt path mode) progress =
      .error (.file error) progress := by
    have hrun : (FileSystem.openAt path mode).run progress.world.files = .error error files := hopen
    rw [onFiles, hrun, hsame]
  have hstream : onFilesLogged (FileSystem.openAt path mode) (Journal.opened · path) progress =
      .error (.file error) progress := by
    rw [onFilesLogged, bind_ok (world_ok progress), bind_error hfiles]
  rw [openFile, bind_error hstream]

end Open

/-- A redirect that can be opened puts a new handle in place of a stream, and the others follow in
the world that it leaves. -/
theorem redirect_cons_ok {cwd : Text} (number : Int) {target : Redirect} {progress : Progress}
    {stream : Stream} {files : FileSystem}
    (hopen : FileSystem.openAt (target.path cwd) target.mode.openMode progress.world.files =
      .ok stream files) (rest : List (Int × Redirect)) (streams : StreamSet) :
    ∃ log, redirect cwd ((number, target) :: rest) streams progress =
      redirect cwd rest (streams.redirected number progress.world.endpoints.length)
        { progress with
          world := progress.world.opened (target.path cwd) target.mode.openMode, log := log } := by
  obtain ⟨log, hopened⟩ := openFile_ok hopen
  rw [Redirect.path] at hopened
  rw [redirect, bind_ok hopened]
  cases StreamSet.isKnown number with
  | true => exact ⟨log, rfl⟩
  | false => exact ⟨_, rfl⟩

/-- The streams of a command are set up as its redirects are carried out in the world, and nothing
changes but the world and the log. -/
theorem attempt_redirect {cwd : Text} (redirects : List (Int × Redirect)) (streams : StreamSet)
    (progress : Progress) :
    ∃ log, (attempt (redirect cwd redirects streams) : Action ε _) progress =
      .ok ((World.carryOut cwd progress.world streams redirects).1.mapError .file)
        { progress with
          world := (World.carryOut cwd progress.world streams redirects).2, log := log } := by
  induction redirects generalizing progress streams with
  | nil => exact ⟨progress.log, rfl⟩
  | cons entry redirects ih =>
    obtain ⟨number, target⟩ := entry
    rw [World.carryOut]
    cases hopen : FileSystem.openAt (target.path cwd) target.mode.openMode progress.world.files with
    | error error files =>
      have hfails : redirect cwd ((number, target) :: redirects) streams progress =
          .error (.file error) progress := bind_error (openFile_error hopen)
      exact ⟨progress.log, attempt_error hfails⟩
    | ok stream files =>
      obtain ⟨log, hnext⟩ := redirect_cons_ok number hopen redirects streams
      rw [attempt, hnext]
      exact ih _ _

/-- Redirects that all append to the same file get the next handles. -/
theorem redirect_append_ok {cwd : Text} {target : Path} {inode : Inode}
    {redirects : List (Int × Redirect)}
    (hredirects : ∀ entry ∈ redirects,
      entry.2.mode = .append ∧ Path.interpret cwd [entry.2.target] = target)
    {progress : Progress} (hget : progress.world.files.get target = some (.file inode))
    (streams : StreamSet) :
    ∃ after, redirect cwd redirects streams progress =
        .ok (streams.redirectedFrom progress.world.endpoints.length redirects) after ∧
      after.world =
        progress.world.run (List.replicate redirects.length (.call (.openAt target .append))) := by
  have hsteps : openings cwd redirects =
      List.replicate redirects.length (.call (.openAt target .append)) := by
    refine List.eq_replicate_iff.2 ⟨List.length_map _, fun step hstep => ?_⟩
    obtain ⟨entry, hentry, rfl⟩ := List.mem_map.1 hstep
    obtain ⟨hmode, hpath⟩ := hredirects entry hentry
    rw [Redirect.path, hmode, hpath]
    rfl
  obtain ⟨log, hrun⟩ := @attempt_redirect Mishap cwd redirects streams progress
  rw [World.carryOut_ok (World.opensAll_append hredirects hget)] at hrun
  exact ⟨_, ok_of_attempt hrun, by rw [hsteps]⟩

end Action

end MemShell
