import MemShell.Files.Saved
import MemShell.Proofs.Files.Install
import MemShell.Proofs.Files.Invariant
import MemShell.Proofs.Json.Distinct

/-!
# Loaded trees

A saved form with distinct names describes a well-formed tree, whatever else it says: an entry with
a name that no entry can have is refused. So a file system that is loaded from a text is well formed
and its numbers are distinct.
-/

namespace MemShell

namespace Tree

variable {fields : List (Text × Json)}

/-- A directory is read from the field of its entries; without the field it is empty. -/
theorem ofDirectoryFields_eq (fields : List (Text × Json)) :
    ofDirectoryFields fields =
      ((fields.lookup entriesField).map ofEntriesValue).getD (.ok (directory [])) := by
  induction fields with
  | nil => rw [ofDirectoryFields]; rfl
  | cons field fields ih =>
    obtain ⟨name, value⟩ := field
    rw [ofDirectoryFields, Assoc.lookup_cons_eq_ite]
    by_cases hname : name = entriesField
    · rw [if_pos hname, if_pos hname.symm]
      rfl
    · rw [if_neg hname, if_neg (Ne.symm hname), ih]

/-- The entries that are read have the names of the fields and the trees of their values. -/
theorem ofEntryFields_eq_ok {entries : List (Text × Tree)}
    (h : ofEntryFields fields = .ok entries) :
    Assoc.keys entries = Assoc.keys fields ∧
      ∀ entry ∈ entries, ∃ field ∈ fields, field.1 = entry.1 ∧ ofJson field.2 = .ok entry.2 := by
  induction fields generalizing entries with
  | nil =>
    rw [ofEntryFields] at h
    cases h
    exact ⟨rfl, fun _ hnil => absurd hnil List.not_mem_nil⟩
  | cons field fields ih =>
    obtain ⟨name, value⟩ := field
    rw [ofEntryFields] at h
    cases hvalue : ofJson value with
    | error e => rw [hvalue] at h; cases h
    | ok tree =>
      cases hrest : ofEntryFields fields with
      | error e => rw [hvalue, hrest] at h; cases h
      | ok rest =>
        rw [hvalue, hrest] at h
        cases h
        obtain ⟨hkeys, hentries⟩ := ih hrest
        refine ⟨congrArg (name :: ·) hkeys, fun entry hentry => ?_⟩
        rcases List.mem_cons.1 hentry with rfl | hentry
        · exact ⟨_, List.mem_cons_self, rfl, hvalue⟩
        · obtain ⟨field, hfield, hsame⟩ := hentries entry hentry
          exact ⟨field, List.mem_cons_of_mem _ hfield, hsame⟩

/-- A directory is made of entries that all have proper names. -/
theorem ofNamed_eq_ok {entries : List (Text × Tree)} {tree : Tree}
    (h : ofNamed entries = .ok tree) :
    tree = directory entries ∧ ∀ entry ∈ entries, ValidName entry.1 := by
  rw [ofNamed, makeDirectory] at h
  split at h
  · next hmade =>
    split at hmade
    · cases hmade
    · next hnone =>
      cases hmade
      cases h
      exact ⟨rfl, by simpa using List.find?_eq_none.1 hnone⟩
  · cases h
  · cases h

/-- What is read from a value with distinct names is well formed, be it the saved form of a node or
the entries of one. -/
theorem wellFormed_of_distinct {json : Json} (h : json.Distinct) :
    (∀ tree, ofJson json = .ok tree → tree.WellFormed) ∧
      ∀ tree, ofEntriesValue json = .ok tree → tree.WellFormed := by
  -- an object is met in both parts, so the induction has to carry both
  induction h with
  | @object fields nodup inner ih =>
    constructor
    · intro tree htree
      rw [ofJson] at htree
      split at htree
      · cases htree
      · rw [ofDirectoryFields_eq] at htree
        cases hvalue : fields.lookup entriesField with
        | some value =>
          rw [hvalue] at htree
          exact (ih _ ((Assoc.lookup_eq_some_iff nodup).1 hvalue)).2 tree htree
        | none =>
          rw [hvalue] at htree
          cases htree
          exact wellFormed_emptyDirectory
      · rw [contentsOf] at htree
        split at htree <;> cases htree <;> exact .file _
      · cases htree
        exact .null
    · intro tree htree
      rw [ofEntriesValue] at htree
      cases hentries : ofEntryFields fields with
      | error e => rw [hentries] at htree; cases htree
      | ok entries =>
        rw [hentries] at htree
        obtain ⟨rfl, hvalid⟩ := ofNamed_eq_ok htree
        obtain ⟨hkeys, horigin⟩ := ofEntryFields_eq_ok hentries
        refine .directory (hkeys ▸ nodup) hvalid fun entry hentry => ?_
        obtain ⟨field, hfield, -, hread⟩ := horigin entry hentry
        exact (ih field hfield).1 _ hread
  | @other json hother =>
    constructor
    · intro tree htree
      cases json with
      | object fields => exact absurd rfl (hother fields)
      | null | bool | int | float | string | array => rw [ofJson] at htree <;> cases htree
    · intro tree htree
      cases json with
      | object fields => exact absurd rfl (hother fields)
      | null | bool | int | float | string | array => rw [ofEntriesValue] at htree <;> cases htree

end Tree

namespace FileSystem

/-- A loaded file system is made of a well-formed directory. -/
theorem exists_of_load {text : Text} {fs : FileSystem} (h : load text = .ok fs) :
    ∃ entries, (Tree.directory entries).WellFormed ∧ fs = ofEntries entries := by
  rw [load, readSaved] at h
  cases hparse : Json.parse text with
  | error error => rw [hparse] at h; cases error <;> cases h
  | ok json =>
    rw [hparse] at h
    cases htree : Tree.ofJson json with
    | error e => simp only [htree] at h; cases h
    | ok tree =>
      have hdistinct := Json.distinct_of_parse? (Json.parse?_eq_some_iff.2 hparse)
      have hwell := (Tree.wellFormed_of_distinct hdistinct).1 tree htree
      simp only [htree] at h
      cases tree with
      | directory entries =>
        cases h
        exact ⟨entries, hwell, rfl⟩
      | file | null => cases h

/-- A loaded file system is well formed, and its numbers are distinct. -/
theorem wellFormed_of_load {text : Text} {fs : FileSystem} (h : load text = .ok fs) :
    fs.WellFormed ∧ fs.Numbered := by
  obtain ⟨entries, hentries, rfl⟩ := exists_of_load h
  exact ⟨wellFormed_ofEntries hentries, numbered_ofEntries entries⟩

end FileSystem

end MemShell
