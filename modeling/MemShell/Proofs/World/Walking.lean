import MemShell.Proofs.Files.Loading
import MemShell.Proofs.Files.Walk
import MemShell.Proofs.World.Steps

/-!
# Walks in the course of a run

Every step keeps the tree well formed if what it adds is well formed, and the numbers of the nodes
apart. Main statement: in every file system that steps lead to from the empty one or from a loaded
one, a walk from the root and the lookup of paths agree about what is where.
-/

namespace MemShell

namespace FileCall

/-- What a call adds is well formed; only an addition adds something from outside. -/
def AddsWellFormed : FileCall → Prop
  | add _ tree _ => tree.WellFormed
  | _ => True

/-- A call keeps file systems well formed, whether it succeeds or fails. -/
theorem keeps_run {call : FileCall} (h : call.AddsWellFormed) :
    FileOp.Keeps FileSystem.WellFormed call.run fun _ => True := by
  cases call with
  | add target tree createParents => exact (FileSystem.keeps_add target h createParents).discard
  | copy source destination recursive => exact FileSystem.keeps_copy source destination recursive
  | move source destination => exact FileSystem.keeps_move source destination
  | remove target => exact FileOp.keeps_modify (fun fs hfs => hfs.remove target) trivial
  | openAt target mode => exact (FileSystem.keeps_openAt target mode).discard
  | moveMappings sources destination =>
    refine FileOp.keeps_get.bind fun fs _ => ?_
    cases fs.moveMappings sources destination with
    | ok pairs => exact FileOp.keeps_pure trivial
    | error error => exact FileOp.keeps_throw error

/-- The file system after a call is well formed if the one before it was. -/
theorem wellFormed_after {call : FileCall} (h : call.AddsWellFormed) {fs : FileSystem}
    (hfs : fs.WellFormed) : (call.after fs).WellFormed := by
  have hrun := keeps_run h fs hfs
  rw [after]
  cases hcall : call.run fs with
  | ok value made =>
    rw [hcall] at hrun
    exact hrun.1
  | error error made =>
    rw [hcall] at hrun
    exact hrun

end FileCall

namespace World

/-- What a step adds is well formed. -/
def Step.AddsWellFormed : World.Step → Prop
  | .call made => made.AddsWellFormed
  | _ => True

variable {world : World}

/-- A step keeps the files well formed. -/
theorem wellFormed_step {step : Step} (hstep : step.AddsWellFormed)
    (h : world.files.WellFormed) : (world.step step).files.WellFormed := by
  obtain ⟨call, rfl⟩ | ⟨-, ⟨inode, text, hfiles⟩ | hfiles⟩ := world.files_step step
  · rw [files_call]
    exact FileCall.wellFormed_after hstep h
  · rw [hfiles]
    exact h
  · rwa [hfiles]

/-- A run keeps the files well formed. -/
theorem wellFormed_run (h : world.files.WellFormed) {steps : List Step}
    (hsteps : ∀ step ∈ steps, step.AddsWellFormed) : (world.run steps).files.WellFormed := by
  induction steps generalizing world with
  | nil => exact h
  | cons step steps ih =>
    rw [List.forall_mem_cons] at hsteps
    exact ih (wellFormed_step hsteps.1 h) hsteps.2

/-- The files of a world are as they are at a start: there are none, or they have just been loaded.
-/
inductive StartsWith (world : World) : Prop
  /-- There are no files. -/
  | empty (h : world.files = .empty)
  /-- The files have been loaded from a text. -/
  | loaded {text : Text} (h : FileSystem.load text = .ok world.files)

/-- At a start the files are well formed, and their numbers are distinct. -/
theorem StartsWith.wellFormed (h : world.StartsWith) :
    world.files.WellFormed ∧ world.files.Numbered := by
  cases h with
  | empty h =>
    rw [h]
    exact ⟨FileSystem.wellFormed_empty, FileSystem.numbered_empty⟩
  | loaded h => exact FileSystem.wellFormed_of_load h

/-- Wherever steps lead from a start, every entry has a proper name, no number is met at two places,
and a walk from the root meets what is found at the paths. -/
theorem walksAll_run (hstart : world.StartsWith) {steps : List Step}
    (hsteps : ∀ step ∈ steps, step.AddsWellFormed) :
    (world.run steps).files.WellFormed ∧ (world.run steps).files.Numbered ∧
      (world.run steps).files.WalksAll := by
  obtain ⟨hwell, hnumbered⟩ := hstart.wellFormed
  have hwell' := wellFormed_run hwell hsteps
  have hnumbered' := numbered_run hnumbered steps
  exact ⟨hwell', hnumbered', hwell'.walksAll hnumbered'⟩

/-- The saved form of a directory with a note. -/
def saved : Text :=
  "\x7b\"type\":\"Directory\",\"nodes\":\x7b\"b\":\x7b\"type\":\"File\",\"contents\":\"x\"\x7d\x7d\x7d"

/-- The note goes into a new directory that is then copied, and its copy is written to. -/
def filing : List Step :=
  [.call (.add (Path.ofText "/c") .emptyDirectory false),
    .call (.move (Path.ofText "/b") (Path.ofText "/c/b")),
    .call (.copy (Path.ofText "/c") (Path.ofText "/a") true),
    .call (.openAt (Path.ofText "/a/b") .write),
    .write 0 "y"]

theorem walksAll_run_filing :
    ∃ files, FileSystem.load saved = .ok files ∧
      let after := ({ blank [] with files := files }.run filing).files
      after.WalksAll ∧
        (after.look ["a", "b"], after.look ["c", "b"], after.look ["b"]) =
          (.file "y", .file "x", .absent) := by
  have hlook : (FileSystem.load saved).toOption.map (fun files =>
      let after := ({ blank [] with files := files }.run filing).files
      (after.look ["a", "b"], after.look ["c", "b"], after.look ["b"])) =
        some (.file "y", .file "x", .absent) := by decide +kernel
  obtain ⟨files, hfiles, hlook⟩ := Option.map_eq_some_iff.1 hlook
  have hload : FileSystem.load saved = .ok files := by
    cases hread : FileSystem.load saved with
    | ok read => rw [hread] at hfiles; cases hfiles; rfl
    | error e => rw [hread] at hfiles; cases hfiles
  have hsteps : ∀ step ∈ filing, step.AddsWellFormed := by
    simp [filing, Step.AddsWellFormed, FileCall.AddsWellFormed, Tree.wellFormed_emptyDirectory]
  have hstart : { blank [] with files := files }.StartsWith := .loaded hload
  exact ⟨files, hload, (walksAll_run hstart hsteps).2.2, hlook⟩

end World

end MemShell
