import MemShell.Proofs.Files.Carrying
import MemShell.Shell.World

/-!
# Runs on files and streams

What can be done to the files of a world step by step: a call of a file operation, and writing and
reading through a handle. A file that is opened gets a new handle. Whatever is done, the nodes keep
their numbers and go where the calls carry them, and a handle stays on its file.
-/

namespace MemShell

namespace FileCall

/-- The file system after a call, whether it succeeds or fails. -/
def after (call : FileCall) (fs : FileSystem) : FileSystem :=
  match call.run fs with
  | .ok _ fs => fs
  | .error _ fs => fs

/-- Where the node at a list of names is after a call, unless it has been dropped. A call that fails
carries nothing. -/
def follow (call : FileCall) (fs : FileSystem) (names : List Text) : Option (List Text) :=
  match call.run fs with
  | .ok .. => call.carry fs names
  | .error .. => some names

/-- A call carries nodes and keeps the numbers apart if it succeeds, and changes nothing otherwise.
-/
theorem after_spec (call : FileCall) (fs : FileSystem) :
    fs.Carries (call.follow fs) (call.after fs) ∧ (fs.Numbered → (call.after fs).Numbered) := by
  obtain ⟨value, made, hrun, -, hbecomes⟩ | ⟨error, hrun⟩ :=
    (call.run_allOrNothing fs).ok_or_error
  · have hafter : call.after fs = made := by rw [after, hrun]
    have hfollow : call.follow fs = call.carry fs := funext fun names => by rw [follow, hrun]
    rw [hafter, hfollow]
    exact ⟨call.leaves_run fs value made hrun, fun h => (hbecomes h).1⟩
  · have hafter : call.after fs = fs := by rw [after, hrun]
    have hfollow : call.follow fs = some := funext fun names => by rw [follow, hrun]
    rw [hafter, hfollow]
    exact ⟨.refl fs, id⟩

end FileCall

namespace Stream

/-- The number of the file that a stream is on. -/
def file? : Stream → Option Inode
  | file inode _ => some inode
  | _ => none

/-- A stream on a file has a position in it. -/
theorem file?_eq_some_iff {stream : Stream} {inode : Inode} :
    stream.file? = some inode ↔ ∃ pointer, stream = .file inode pointer := by
  cases stream <;> simp [file?]

/-- A stream stays on its file when it is written to. -/
theorem file?_write (stream : Stream) (disk : Disk) (text : Text) :
    (stream.write disk text).1.file? = stream.file? := by
  cases stream <;> rfl

/-- A stream stays on its file when it is read from. -/
theorem file?_advance (stream : Stream) (count : Nat) :
    (stream.advance count).file? = stream.file? := by
  cases stream <;> rfl

end Stream

namespace World

/-! ## Steps -/

/-- A step on the files of a world. -/
inductive Step
  /-- A call of a file operation. -/
  | call (call : FileCall)
  /-- Writes a text through a handle. -/
  | write (handle : Handle) (text : Text)
  /-- Writes a text and a line break through a handle. -/
  | writeLine (handle : Handle) (text : Text)
  /-- Reads through a handle. -/
  | read (handle : Handle) (count : Option Int)
  /-- Reads a line through a handle. -/
  | readLine (handle : Handle)

/-- The world after the file at a path has been opened: there is a new handle for the stream, unless
opening fails. -/
def opened (target : Path) (mode : OpenMode) (world : World) : World :=
  match FileSystem.openAt target mode world.files with
  | .ok stream files => (newEndpoint (.stream stream) { world with files := files }).2
  | .error _ files => { world with files := files }

/-- The world after a step. -/
def step (world : World) : Step → World
  | .call (.openAt target mode) => world.opened target mode
  | .call call => { world with files := call.after world.files }
  | .write handle text => world.write handle text
  | .writeLine handle text => world.writeLine handle text
  | .read handle count => (world.readWith (fun disk stream => stream.read disk count) handle).2
  | .readLine handle => (world.readLine handle).2

/-- The world after several steps, one after the other. -/
def run (world : World) (steps : List Step) : World := steps.foldl step world

/-- Where the node at a list of names is after a step, unless it has been dropped. -/
def follow (world : World) : Step → List Text → Option (List Text)
  | .call call, names => call.follow world.files names
  | _, names => some names

/-- Where the node at a list of names is after several steps, unless it has been dropped. -/
def followAll (world : World) : List Step → List Text → Option (List Text)
  | [], names => some names
  | step :: steps, names => (world.follow step names).bind ((world.step step).followAll steps)

variable {world : World}

/-- A call does to the files what it says. -/
theorem files_call (world : World) (call : FileCall) :
    (world.step (.call call)).files = call.after world.files := by
  cases call with
  | openAt target mode =>
    have hrun : (FileCall.openAt target mode).run world.files =
        EStateM.map (fun _ => PUnit.unit) (FileSystem.openAt target mode) world.files := rfl
    rw [World.step, opened, FileCall.after, hrun, EStateM.map]
    cases FileSystem.openAt target mode world.files <;> rfl
  | add | copy | move | remove | moveMappings => rfl

/-- Writing through a handle writes a text for the number of a file, or does not touch the files. -/
theorem files_write (world : World) (handle : Handle) (text : Text) :
    (∃ inode contents, (world.write handle text).files = world.files.write inode contents) ∨
      (world.write handle text).files = world.files := by
  rw [write]
  split
  · next stream _ =>
    cases stream with
    | file inode pointer => exact .inl ⟨inode, _, rfl⟩
    | buffer unread | null => exact .inr rfl
  · exact .inr rfl
  · exact .inr rfl

/-- Reading does not touch the files. -/
theorem files_readWith (world : World) (read : Disk → Stream → Text × Stream) (handle : Handle) :
    (world.readWith read handle).2.files = world.files := by
  rw [readWith]
  split <;> rfl

/-- A step is a call, or it writes a text for the number of a file, or it does not touch the files.
-/
theorem files_step (world : World) (step : Step) :
    (∃ call, step = .call call) ∨
      world.follow step = some ∧
        ((∃ inode text, (world.step step).files = world.files.write inode text) ∨
          (world.step step).files = world.files) := by
  cases step with
  | call call => exact .inl ⟨call, rfl⟩
  | write handle text => exact .inr ⟨rfl, world.files_write handle text⟩
  | writeLine handle text => exact .inr ⟨rfl, world.files_write handle _⟩
  | read handle count => exact .inr ⟨rfl, .inr (world.files_readWith _ handle)⟩
  | readLine handle => exact .inr ⟨rfl, .inr (world.files_readWith _ handle)⟩

/-- A step carries every node as it should, and all numbers stay apart. -/
theorem step_spec (world : World) (step : Step) :
    world.files.Carries (world.follow step) (world.step step).files ∧
      (world.files.Numbered → (world.step step).files.Numbered) := by
  obtain ⟨call, rfl⟩ | ⟨hfollow, ⟨inode, text, hfiles⟩ | hfiles⟩ := world.files_step step
  · rw [files_call]
    exact call.after_spec world.files
  · rw [hfollow, hfiles]
    exact ⟨.of_stat_eq (Nat.le_of_eq (Disk.next_write _ _ _).symm) fun _ => rfl,
      fun h => h.write inode text⟩
  · rw [hfollow, hfiles]
    exact ⟨.refl _, id⟩

/-- The numbers stay apart in a run. -/
theorem numbered_run (h : world.files.Numbered) (steps : List Step) :
    (world.run steps).files.Numbered := by
  induction steps generalizing world with
  | nil => exact h
  | cons step steps ih => exact ih ((world.step_spec step).2 h)

/-! ## Handles -/

/-- A handle is on the file with a number. -/
def IsOn (world : World) (handle : Handle) (inode : Inode) : Prop :=
  ∃ pointer, world.endpoints[handle]? = some (.stream (.file inode pointer))

section IsOn

variable {handle : Handle} {inode : Inode}

/-- A stream that takes the place of one on the same file leaves every handle on its file. -/
theorem IsOn.putStream (h : world.IsOn handle inode) {other : Handle} {stream moved : Stream}
    (hother : world.endpoints[other]? = some (.stream stream)) (hfile : moved.file? = stream.file?)
    (disk : Disk) : (world.putStream other moved disk).IsOn handle inode := by
  obtain ⟨pointer, hhandle⟩ := h
  by_cases hsame : other = handle
  · subst hsame
    cases hhandle.symm.trans hother
    obtain ⟨position, rfl⟩ := Stream.file?_eq_some_iff.1 hfile
    have hlt : other < world.endpoints.length := (List.getElem?_eq_some_iff.1 hother).1
    exact ⟨position, List.getElem?_set_self hlt⟩
  · exact ⟨pointer, (List.getElem?_set_ne hsame).trans hhandle⟩

/-- Writing leaves every handle on its file. -/
theorem IsOn.write (h : world.IsOn handle inode) (other : Handle) (text : Text) :
    (world.write other text).IsOn handle inode := by
  rw [World.write]
  split
  · next stream hother => exact h.putStream hother (stream.file?_write _ text) _
  · exact h
  · exact h

/-- Reading leaves every handle on its file. -/
theorem IsOn.readWith (h : world.IsOn handle inode) {read : Disk → Stream → Text × Stream}
    (hread : ∀ disk stream, (read disk stream).2.file? = stream.file?) (other : Handle) :
    (world.readWith read other).2.IsOn handle inode := by
  rw [World.readWith]
  split
  · next stream hother => exact h.putStream hother (hread _ stream) _
  · exact h

/-- Opening a file leaves every handle on its file. -/
theorem IsOn.opened (h : world.IsOn handle inode) (target : Path) (mode : OpenMode) :
    (world.opened target mode).IsOn handle inode := by
  rw [World.opened]
  cases FileSystem.openAt target mode world.files with
  | ok stream files =>
    obtain ⟨pointer, hhandle⟩ := h
    refine ⟨pointer, (List.getElem?_append_left ?_).trans hhandle⟩
    exact (List.getElem?_eq_some_iff.1 hhandle).1
  | error error files => exact h

/-- A step leaves every handle on its file. -/
theorem IsOn.step (h : world.IsOn handle inode) (step : Step) :
    (world.step step).IsOn handle inode := by
  cases step with
  | call call =>
    cases call with
    | openAt target mode => exact h.opened target mode
    | add | copy | move | remove | moveMappings => exact h
  | write other text => exact h.write other text
  | writeLine other text => exact h.write other _
  | read other count => exact h.readWith (fun _ stream => stream.file?_advance _) other
  | readLine other => exact h.readWith (fun _ stream => stream.file?_advance _) other

/-- A run leaves every handle on its file. -/
theorem IsOn.run (h : world.IsOn handle inode) (steps : List Step) :
    (world.run steps).IsOn handle inode := by
  induction steps generalizing world with
  | nil => exact h
  | cons step steps ih => exact ih (h.step step)

end IsOn

/-- A new handle is on the file at the path that has been opened. -/
theorem stat_of_isOn_opened {target : Path} {mode : OpenMode} {inode : Inode}
    (h : (world.opened target mode).IsOn world.endpoints.length inode) :
    (world.opened target mode).files.stat target.parts = some (.file, inode) := by
  obtain ⟨pointer, hhandle⟩ := h
  rw [World.opened] at hhandle ⊢
  cases hopen : FileSystem.openAt target mode world.files with
  | ok stream files =>
    rw [hopen] at hhandle
    have hstream : stream = .file inode pointer := by
      simpa [newEndpoint] using hhandle
    obtain ⟨hopened, -⟩ := FileSystem.leaves_openAt target mode world.files stream files hopen
    rw [hstream] at hopened
    cases hopened with
    | file hstat => exact hstat
  | error error files =>
    rw [hopen] at hhandle
    exact absurd hhandle (by simp)

end World

end MemShell
