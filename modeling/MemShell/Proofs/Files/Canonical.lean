import MemShell.Proofs.Files.Saving
import MemShell.Proofs.World.Walking

/-!
# Saved forms are canonical

A saved form is made in the order of names, so it does not show in which order the entries of a
directory came to it. Trees that look the same have the same saved form. Main statement: file systems
that steps have led to, whichever they were, and that show the same node with the same text at every
path are saved as the same text.
-/

namespace MemShell

namespace Tree

/-- Something is seen of every tree. -/
theorem view_ne_absent (tree : Tree) : tree.view ≠ .absent := by
  cases tree <;> simp [view]

/-- Whether there is an entry under a name is seen. -/
theorem look_singleton_eq_absent_iff {entries : List (Text × Tree)} {name : Text} :
    (directory entries).look [name] = .absent ↔ entries.lookup name = none := by
  rw [look]
  cases entries.lookup name with
  | none => simp
  | some child => simpa [look] using view_ne_absent child

/-- Directories that look the same have entries under the same names, and these look the same. -/
theorem lookup_of_look_eq {entries others : List (Text × Tree)}
    (h : (directory entries).look = (directory others).look) (name : Text) :
    (entries.lookup name = none ∧ others.lookup name = none) ∨
      ∃ child reflection, entries.lookup name = some child ∧
        others.lookup name = some reflection ∧ child.look = reflection.look := by
  have hpresent : entries.lookup name = none ↔ others.lookup name = none := by
    rw [← look_singleton_eq_absent_iff, ← look_singleton_eq_absent_iff, h]
  cases hchild : entries.lookup name with
  | none => exact .inl ⟨rfl, hpresent.1 hchild⟩
  | some child =>
    cases hreflection : others.lookup name with
    | none => rw [hpresent.2 hreflection] at hchild; cases hchild
    | some reflection =>
      refine .inr ⟨child, reflection, rfl, rfl, funext fun names => ?_⟩
      have hnames := congrFun h (name :: names)
      rwa [look, look, hchild, hreflection] at hnames

/-- The order of entries with distinct names is not seen. -/
theorem look_directory_perm {entries others : List (Text × Tree)} (h : entries.Perm others)
    (hnodup : (Assoc.keys entries).Nodup) : (directory entries).look = (directory others).look := by
  funext names
  cases names with
  | nil => rfl
  | cons name names => rw [look, look, Assoc.lookup_perm h hnodup]

/-- Well-formed trees that look the same have the same saved form. -/
theorem WellFormed.toJson_congr {tree other : Tree} (h : tree.WellFormed) (hother : other.WellFormed)
    (hlook : tree.look = other.look) : tree.toJson = other.toJson := by
  have hview : tree.view = other.view := congrFun hlook []
  induction h generalizing other with
  | @directory entries nodup valid inner ih =>
    cases hother with
    | @directory others distinct proper below =>
      have hfields : Json.sortByName (entries.map fun entry => (entry.1, entry.2.toJson)) =
          Json.sortByName (others.map fun entry => (entry.1, entry.2.toJson)) := by
        refine Json.sortByName_congr ?_ ?_ fun name => ?_
        · rwa [Assoc.keys_map fun entry : Text × Tree => entry.2.toJson]
        · rwa [Assoc.keys_map fun entry : Text × Tree => entry.2.toJson]
        · rw [Assoc.lookup_map, Assoc.lookup_map]
          obtain ⟨hnone, hnone'⟩ | ⟨child, reflection, hchild, hreflection, hsame⟩ :=
            lookup_of_look_eq hlook name
          · rw [hnone, hnone']
          · have hentry := (Assoc.lookup_eq_some_iff nodup).1 hchild
            have hmirror := (Assoc.lookup_eq_some_iff distinct).1 hreflection
            rw [hchild, hreflection, Option.map_some, Option.map_some,
              ih _ hentry (below _ hmirror) hsame (congrFun hsame [])]
      rw [toJson_directory, toJson_directory, ← Json.sortByName_map, ← Json.sortByName_map, hfields]
    | file | null => cases hview
  | file text =>
    cases hother with
    | file other => cases hview; rfl
    | directory | null => cases hview
  | null =>
    cases hother with
    | null => rfl
    | directory | file => cases hview

end Tree

namespace FileSystem

variable {fs other : FileSystem}

/-- Different views are described differently. -/
theorem View.described_injective : Function.Injective View.described := by
  intro view reflection h
  cases view <;> cases reflection <;> simp_all [described]

/-- What is seen at the paths is all that is to be seen in a well-formed file system. -/
theorem WellFormed.look_eq_of_seen (h : fs.WellFormed) (hother : other.WellFormed)
    (hseen : ∀ path, fs.seen path = other.seen path) : fs.look = other.look := by
  funext names
  by_cases hvalid : ∀ name ∈ names, ValidName name
  · cases names with
    | nil => rfl
    | cons name names =>
      have hslash : name :: names = [] → false = true := fun hnil => absurd hnil (by simp)
      have hpath := hseen ⟨name :: names, false, hvalid, hslash⟩
      have hwhole (fs : FileSystem) : fs.seen ⟨name :: names, false, hvalid, hslash⟩ =
          (fs.look (name :: names)).described := by
        rw [seen_eq]
        cases (fs.look (name :: names)).described <;> rfl
      rw [hwhole, hwhole] at hpath
      exact View.described_injective hpath
  · have hnone {fs : FileSystem} (h : fs.WellFormed) : fs.look names = .absent := by
      rw [look]
      cases hfind : fs.find names with
      | none => rfl
      | some node => exact absurd (Node.WellFormed.validName_of_find h hfind) hvalid
    rw [hnone h, hnone hother]

/-- Well-formed file systems in which the same is seen have the same saved form. -/
theorem WellFormed.toJson_congr (h : fs.WellFormed) (hother : other.WellFormed)
    (hseen : ∀ path, fs.seen path = other.seen path) :
    fs.root.toJson fs.disk = other.root.toJson other.disk := by
  rw [Node.WellFormed.toJson_eq h, Node.WellFormed.toJson_eq hother]
  refine (Node.WellFormed.contents h _).toJson_congr (Node.WellFormed.contents hother _) ?_
  rw [look_root, look_root, h.look_eq_of_seen hother hseen]

end FileSystem

namespace World

/-- Wherever steps have led to from well-formed file systems, if the same is seen at every path, then
the saved forms are the same, and so are the texts in every style. -/
theorem save_run_congr {world other : World} (hworld : world.files.WellFormed)
    (hother : other.files.WellFormed) {steps others : List Step}
    (hsteps : ∀ step ∈ steps, step.AddsWellFormed) (hothers : ∀ step ∈ others, step.AddsWellFormed)
    (hseen : ∀ path, (world.run steps).files.seen path = (other.run others).files.seen path) :
    (world.run steps).files.root.toJson (world.run steps).files.disk =
        (other.run others).files.root.toJson (other.run others).files.disk ∧
      ∀ style, FileSystem.save style (world.run steps).files =
        FileSystem.save style (other.run others).files := by
  have hform := (wellFormed_run hworld hsteps).toJson_congr (wellFormed_run hother hothers) hseen
  exact ⟨hform, fun style => by rw [FileSystem.save, FileSystem.save, hform]⟩

/-- A directory and a note next to it. -/
def plainly : List Step :=
  [.call (.add (Path.ofText "/a") .emptyDirectory false),
    .call (.add (Path.ofText "/b") (.file "x") false)]

/-- The note is made elsewhere, moved and written to, and the directory comes last. -/
def roundabout : List Step :=
  [.call (.add (Path.ofText "/c/d") (.file "yz") true),
    .call (.move (Path.ofText "/c/d") (Path.ofText "/b")),
    .call (.openAt (Path.ofText "/b") .write),
    .write 0 "x",
    .call (.remove (Path.ofText "/c")),
    .call (.add (Path.ofText "/a") .emptyDirectory false)]

theorem save_run_congr_roundabout :
    let files := ((blank []).run roundabout).files
    let others := ((blank []).run plainly).files
    Assoc.keys files.entries = [['b'], ['a']] ∧ Assoc.keys others.entries = [['a'], ['b']] ∧
      ∀ style, FileSystem.save style files = FileSystem.save style others := by
  intro files others
  have hroot : files.root.contents files.disk =
      .directory [(['b'], .file ['x']), (['a'], .directory [])] := by rfl
  have hothers : others.root.contents others.disk =
      .directory [(['a'], .directory []), (['b'], .file ['x'])] := by rfl
  have hlook : (files.root.contents files.disk).look = (others.root.contents others.disk).look := by
    rw [hroot, hothers]
    exact Tree.look_directory_perm (.swap _ _ _) (by decide)
  have hseen (path : Path) : files.seen path = others.seen path := by
    rw [FileSystem.seen_eq, FileSystem.seen_eq, ← FileSystem.look_root, ← FileSystem.look_root,
      hlook]
  have hadds : ∀ step ∈ roundabout ++ plainly, step.AddsWellFormed := by
    simp [roundabout, plainly, Step.AddsWellFormed, FileCall.AddsWellFormed,
      Tree.wellFormed_emptyDirectory, Tree.WellFormed.file]
  obtain ⟨hsteps, hothers⟩ := List.forall_mem_append.1 hadds
  have hblank : (blank []).files.WellFormed := FileSystem.wellFormed_empty
  exact ⟨rfl, rfl, (save_run_congr hblank hblank hsteps hothers hseen).2⟩

end World

end MemShell
