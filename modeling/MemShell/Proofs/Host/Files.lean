import MemShell.Host.Files
import MemShell.Proofs.Map.Assoc

/-!
# Adding to files of the host

A file that is added to is made if it is missing, and so are the directories on the way to it, which
stay from then on. Main statements: texts that are added one after the other are added as one text,
and what a file leads to after adding is what was at its place with the added text behind it.
-/

namespace MemShell.HostFiles

variable {files other : HostFiles} {place : List Text}

/-! ## Directories -/

/-- Directories and files stay where they are. -/
structure Within (files other : HostFiles) : Prop where
  /-- The directories that have been made are still there. -/
  directories : files.directories ⊆ other.directories
  /-- The files are still there. -/
  keys : files.texts.keys ⊆ other.texts.keys

/-- Everything stays where it is when nothing is done. -/
theorem Within.refl (files : HostFiles) : files.Within files :=
  ⟨List.Subset.refl _, List.Subset.refl _⟩

/-- What stays twice stays. -/
theorem Within.trans {last : HostFiles} (h : files.Within other) (hlast : other.Within last) :
    files.Within last :=
  ⟨List.Subset.trans h.directories hlast.directories, List.Subset.trans h.keys hlast.keys⟩

/-- There is a directory where there was one. -/
theorem Within.isDirectory (h : files.Within other) (hplace : files.isDirectory place = true) :
    other.isDirectory place = true := by
  simp only [HostFiles.isDirectory, Bool.or_eq_true, List.contains_iff_mem, List.any_eq_true]
    at hplace ⊢
  rcases hplace with ((hup | hroot) | hmade) | ⟨key, hkey, hbelow⟩
  · exact .inl (.inl (.inl hup))
  · exact .inl (.inl (.inr hroot))
  · exact .inl (.inr (h.directories hmade))
  · exact .inr ⟨key, h.keys hkey, hbelow⟩

/-- Making a directory leaves everything where it is. -/
theorem within_makeDirectory (files : HostFiles) (place : List Text) :
    files.Within (files.makeDirectory place) := by
  rw [makeDirectory]
  split
  · exact .refl files
  · exact ⟨List.subset_append_left _ _, List.Subset.refl _⟩

/-- A directory that is made is there. -/
theorem isDirectory_makeDirectory (files : HostFiles) (place : List Text) :
    (files.makeDirectory place).isDirectory place = true := by
  rw [makeDirectory]
  split
  · assumption
  · simp [isDirectory]

/-- Making the directories of a way leaves everything where it is. -/
theorem within_makeWay (files : HostFiles) (place : List Text) (way : List Text) :
    files.Within (files.makeWay place way) := by
  induction way generalizing files place with
  | nil => exact .refl files
  | cons segment way ih => exact (within_makeDirectory files _).trans (ih _ _)

/-- Making directories changes no text. -/
theorem texts_makeWay (files : HostFiles) (place : List Text) (way : List Text) :
    (files.makeWay place way).texts = files.texts := by
  induction way generalizing files place with
  | nil => rfl
  | cons segment way ih =>
    rw [makeWay, ih, makeDirectory]
    split <;> rfl

/-- All along a way there are directories, apart from its start. -/
def Paved (files : HostFiles) (place : List Text) (way : List Text) : Prop :=
  ∀ front, front <+: way → front ≠ [] → files.isDirectory (front.foldl enter place) = true

/-- A way stays paved. -/
theorem Paved.mono {way : List Text} (h : files.Paved place way) (hwithin : files.Within other) :
    other.Paved place way :=
  fun front hfront hne => hwithin.isDirectory (h front hfront hne)

/-- A way is paved if there is a directory at its first step and the rest is paved from there. -/
theorem paved_cons_iff {segment : Text} {way : List Text} :
    files.Paved place (segment :: way) ↔
      files.isDirectory (enter place segment) = true ∧
        files.Paved (enter place segment) way := by
  constructor
  · intro h
    refine ⟨h [segment] (List.cons_prefix_cons.2 ⟨rfl, List.nil_prefix⟩) (by simp), ?_⟩
    intro front hfront _
    exact h (segment :: front) (List.cons_prefix_cons.2 ⟨rfl, hfront⟩) (by simp)
  · rintro ⟨hfirst, hrest⟩ front hfront hne
    cases front with
    | nil => exact absurd rfl hne
    | cons head front =>
      obtain ⟨rfl, hbelow⟩ := List.cons_prefix_cons.1 hfront
      by_cases hnil : front = []
      · rw [hnil]
        exact hfirst
      · exact hrest front hbelow hnil

/-- A way is paved once its directories have been made. -/
theorem paved_makeWay (files : HostFiles) (place : List Text) (way : List Text) :
    (files.makeWay place way).Paved place way := by
  induction way generalizing files place with
  | nil => exact fun front hfront hne => absurd (List.prefix_nil.1 hfront) hne
  | cons segment way ih =>
    refine paved_cons_iff.2 ⟨?_, ih _ _⟩
    exact (within_makeWay _ _ way).isDirectory (isDirectory_makeDirectory files _)

/-- A way leads to its end if there is a directory at its start and it is paved but for the end. -/
theorem Paved.walk_eq {way : List Text} (hstart : files.isDirectory place = true)
    (h : files.Paved place way.dropLast) :
    files.walk place way = some (way.foldl enter place) := by
  induction way generalizing place with
  | nil => rfl
  | cons segment way ih =>
    rw [walk, if_pos hstart, List.foldl_cons]
    cases way with
    | nil => rfl
    | cons next way =>
      rw [List.dropLast_cons_cons] at h
      obtain ⟨hfirst, hrest⟩ := paved_cons_iff.1 h
      exact ih hfirst hrest

/-- There is a directory where a name starts. -/
theorem isDirectory_origin (files : HostFiles) (name : Text) :
    files.isDirectory (origin name) = true := by
  rw [origin]
  split <;> simp [isDirectory]

/-! ## Texts -/

/-- The place that a name leads to. -/
def placeOf (name : Text) : List Text := (segments name).foldl enter (origin name)

/-- The text at the place of a name, which is empty before the file is made. -/
def textAt (files : HostFiles) (name : Text) : Text := (files.texts.get? (placeOf name)).getD []

/-- The directories on the way to the file of a name have been made. -/
def Leads (files : HostFiles) (name : Text) : Prop :=
  files.Paved (origin name) (segments name).dropLast

/-- Adding to a file changes its text and makes the directories on the way to it. -/
theorem append_eq (files : HostFiles) (name text : Text) :
    files.append name text =
      { files.makeWay (origin name) (segments name).dropLast with
        texts := files.texts.insert (placeOf name) (files.textAt name ++ text) } := by
  rw [append, update, texts_makeWay]
  rfl

/-- A file that has been added to has the added text at its end. -/
theorem get?_append (files : HostFiles) (name text : Text) :
    (files.append name text).texts.get? (placeOf name) = some (files.textAt name ++ text) := by
  rw [append_eq, OrderedMap.get?_insert, if_pos rfl]

/-- The way to a file that has been added to is there. -/
theorem leads_append (files : HostFiles) (name text : Text) :
    (files.append name text).Leads name := by
  refine (paved_makeWay files (origin name) (segments name).dropLast).mono ?_
  rw [append_eq]
  refine ⟨List.Subset.refl _, ?_⟩
  rw [texts_makeWay]
  intro key hkey
  rw [OrderedMap.keys, OrderedMap.insert, Assoc.keys_put]
  split
  · exact hkey
  · exact List.mem_append_left _ hkey

/-- A file that has been added to is found with the added text behind what was at its place. -/
theorem find_append (files : HostFiles) (name text : Text) :
    (files.append name text).find name = .text (Text.unifyBreaks (files.textAt name ++ text)) := by
  have hwalk := (leads_append files name text).walk_eq (isDirectory_origin _ name)
  rw [find, hwalk]
  dsimp only
  rw [← placeOf, get?_append]

end MemShell.HostFiles
