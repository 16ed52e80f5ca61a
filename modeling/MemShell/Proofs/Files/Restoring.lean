import MemShell.Proofs.Files.Encoding
import MemShell.Proofs.Files.Loading
import MemShell.Proofs.Json.RoundTrip

/-!
# Trees are restored

The saved form of a tree describes the tree with its entries in the order of their names, and so
does the saved form with sorted names. The order of entries is not seen: at every list of names
there is what was there before.
-/

namespace MemShell

namespace Tree

mutual

/-- A tree whose directories, all the way down, have their entries in the order of their names. -/
def sorted : Tree → Tree
  | directory entries => directory (Json.sortByName (sortedEntries entries))
  | file text => file text
  | null => null

/-- Entries whose trees are sorted; they keep their own order. -/
def sortedEntries : List (Text × Tree) → List (Text × Tree)
  | [] => []
  | (name, tree) :: entries => (name, tree.sorted) :: sortedEntries entries

end

/-- Entries are sorted below one by one. -/
theorem sortedEntries_eq (entries : List (Text × Tree)) :
    sortedEntries entries = entries.map fun entry => (entry.1, entry.2.sorted) := by
  induction entries with
  | nil => rw [sortedEntries]; rfl
  | cons entry entries ih => rw [sortedEntries, ih]; rfl

/-- A sorted directory has the sorted trees of its entries in order. -/
theorem sorted_directory (entries : List (Text × Tree)) :
    (directory entries).sorted =
      directory ((Json.sortByName entries).map fun entry => (entry.1, entry.2.sorted)) := by
  rw [sorted, sortedEntries_eq, Json.sortByName_map fun entry : Text × Tree => entry.2.sorted]

/-- A well-formed tree is well formed when it is sorted. -/
theorem WellFormed.sorted {tree : Tree} (h : tree.WellFormed) : tree.sorted.WellFormed := by
  induction h with
  | @directory entries nodup valid inner ih =>
    rw [sorted_directory]
    refine .directory ?_ ?_ ?_
    · rw [Assoc.keys_map fun entry : Text × Tree => entry.2.sorted]
      exact Json.nodup_keys_sortByName.2 nodup
    · exact List.forall_mem_map.2 fun entry hentry => valid entry (Json.mem_sortByName.1 hentry)
    · exact List.forall_mem_map.2 fun entry hentry => ih entry (Json.mem_sortByName.1 hentry)
  | file text => exact .file text
  | null => exact .null

/-- Sorting is not seen. -/
theorem WellFormed.look_sorted {tree : Tree} (h : tree.WellFormed) :
    tree.sorted.look = tree.look := by
  funext names
  induction names generalizing tree with
  | nil => cases h <;> rfl
  | cons name names ih =>
    cases h with
    | @directory entries nodup valid inner =>
      rw [sorted_directory, look, look, Assoc.lookup_map, Json.lookup_sortByName nodup]
      cases hchild : entries.lookup name with
      | none => rfl
      | some child => exact ih (inner _ ((Assoc.lookup_eq_some_iff nodup).1 hchild))
    | file text => rfl
    | null => rfl

/-- The fields of a directory have distinct names. -/
theorem nodup_directoryFields {tag inner : Json} :
    (Assoc.keys [(tagField, tag), (entriesField, inner)]).Nodup :=
  show [tagField, entriesField].Nodup by decide

/-- The fields of a file have distinct names. -/
theorem nodup_fileFields {tag text : Json} :
    (Assoc.keys [(tagField, tag), (textField, text)]).Nodup :=
  show [tagField, textField].Nodup by decide

/-- The fields of a null file have distinct names. -/
theorem nodup_nullFields {tag : Json} : (Assoc.keys [(tagField, tag)]).Nodup :=
  List.nodup_singleton _

/-- A saved form is made of strings and of objects with distinct names. -/
theorem WellFormed.textual {tree : Tree} (h : tree.WellFormed) : tree.toJson.Textual := by
  induction h with
  | @directory entries nodup valid inner ih =>
    have hentries : (Json.object ((Json.sortByName entries).map fun entry =>
        (entry.1, entry.2.toJson))).Textual := by
      refine .object ?_ (List.forall_mem_map.2 fun entry hentry => ?_)
      · rw [Assoc.keys_map fun entry : Text × Tree => entry.2.toJson]
        exact Json.nodup_keys_sortByName.2 nodup
      · exact ih entry (Json.mem_sortByName.1 hentry)
    rw [toJson_directory]
    refine .object nodup_directoryFields (List.forall_mem_cons.2 ⟨.string _, ?_⟩)
    exact List.forall_mem_singleton.2 hentries
  | file text =>
    rw [toJson]
    refine .object nodup_fileFields (List.forall_mem_cons.2 ⟨.string _, ?_⟩)
    exact List.forall_mem_singleton.2 (.string text)
  | null =>
    rw [toJson]
    exact .object nodup_nullFields (List.forall_mem_singleton.2 (.string _))

variable {fields : List (Text × Json)}

/-- The trees of entries are read one by one. -/
theorem ofEntryFields_map {entries : List (Text × Tree)} (encode : Tree → Json)
    (decode : Tree → Tree) (h : ∀ entry ∈ entries, ofJson (encode entry.2) = .ok (decode entry.2)) :
    ofEntryFields (entries.map fun entry => (entry.1, encode entry.2)) =
      .ok (entries.map fun entry => (entry.1, decode entry.2)) := by
  induction entries with
  | nil => rw [List.map_nil, ofEntryFields]; rfl
  | cons entry entries ih =>
    rw [List.forall_mem_cons] at h
    rw [List.map_cons, ofEntryFields, h.1, ih h.2]
    rfl

/-- An object with the tag of a directory and an object of entries is read as a directory. -/
theorem ofJson_directory (htag : fields.lookup tagField = some (.string Kind.directory.name))
    {inner : List (Text × Json)} (hinner : fields.lookup entriesField = some (.object inner))
    {entries : List (Text × Tree)} (hentries : ofEntryFields inner = .ok entries)
    (hvalid : ∀ entry ∈ entries, ValidName entry.1) :
    ofJson (.object fields) = .ok (directory entries) := by
  have hnamed : entries.find? (fun entry => decide ¬ValidName entry.1) = none :=
    List.find?_eq_none.2 fun entry hentry => by simpa using hvalid entry hentry
  have hkind : Kind.ofTag (.string Kind.directory.name) = some .directory := by decide
  have hread : ofEntriesValue (.object inner) = ofNamed entries := by
    rw [ofEntriesValue, hentries]
    rfl
  rw [ofJson, htag, Option.getD_some, hkind]
  dsimp only
  rw [ofDirectoryFields_eq, hinner, Option.map_some, Option.getD_some, hread, ofNamed,
    makeDirectory, hnamed]

/-- An object with the tag of a file and a text is read as a file. -/
theorem ofJson_file (htag : fields.lookup tagField = some (.string Kind.file.name)) {text : Text}
    (htext : fields.lookup textField = some (.string text)) :
    ofJson (.object fields) = .ok (file text) := by
  have hkind : Kind.ofTag (.string Kind.file.name) = some .file := by decide
  rw [ofJson, htag, Option.getD_some, hkind, contentsOf, htext]

/-- An object with the tag of a null file is read as a null file. -/
theorem ofJson_null (htag : fields.lookup tagField = some (.string Kind.null.name)) :
    ofJson (.object fields) = .ok null := by
  have hkind : Kind.ofTag (.string Kind.null.name) = some .null := by decide
  rw [ofJson, htag, Option.getD_some, hkind]

/-- A field of an object with distinct names is found in the sorted object, and its value is sorted.
-/
theorem lookup_sorted (h : (Assoc.keys fields).Nodup) (name : Text) :
    (Json.sortByName (Json.sortedFields fields)).lookup name =
      (fields.lookup name).map Json.sorted := by
  rw [Json.sortedFields_eq, Json.lookup_sortByName, Assoc.lookup_map]
  rwa [Assoc.keys_map fun field : Text × Json => field.2.sorted]

/-- The saved forms of entries in order stay in order when their names are sorted. -/
theorem sorted_entries (entries : List (Text × Tree)) :
    (Json.object ((Json.sortByName entries).map fun entry => (entry.1, entry.2.toJson))).sorted =
      .object ((Json.sortByName entries).map fun entry => (entry.1, entry.2.toJson.sorted)) := by
  have hsort := Json.sortByName_map (fun entry : Text × Tree => entry.2.toJson.sorted)
    (Json.sortByName entries)
  rw [Json.sortByName_sortByName] at hsort
  rw [Json.sorted, Json.sortedFields_eq, List.map_map]
  exact congrArg Json.object hsort

/-- A saved form describes the sorted tree, whether or not its names are sorted. -/
theorem WellFormed.ofJson_toJson {tree : Tree} (h : tree.WellFormed) :
    ofJson tree.toJson = .ok tree.sorted ∧ ofJson tree.toJson.sorted = .ok tree.sorted := by
  induction h with
  | @directory entries nodup valid inner ih =>
    have hread : ∀ entry ∈ Json.sortByName entries, ofJson entry.2.toJson = .ok entry.2.sorted ∧
        ofJson entry.2.toJson.sorted = .ok entry.2.sorted :=
      fun entry hentry => ih entry (Json.mem_sortByName.1 hentry)
    have hvalid : ∀ entry ∈ (Json.sortByName entries).map fun entry => (entry.1, entry.2.sorted),
        ValidName entry.1 :=
      List.forall_mem_map.2 fun entry hentry => valid entry (Json.mem_sortByName.1 hentry)
    rw [sorted_directory, toJson_directory, directoryJson, Json.sorted]
    constructor
    · exact ofJson_directory rfl rfl
        (ofEntryFields_map toJson Tree.sorted fun entry hentry => (hread entry hentry).1) hvalid
    · refine ofJson_directory (lookup_sorted nodup_directoryFields _)
        ((lookup_sorted nodup_directoryFields _).trans (congrArg some (sorted_entries entries)))
        ?_ hvalid
      exact ofEntryFields_map (fun tree => tree.toJson.sorted) Tree.sorted fun entry hentry =>
        (hread entry hentry).2
  | file text =>
    rw [toJson, Json.sorted]
    exact ⟨ofJson_file rfl rfl, ofJson_file (lookup_sorted nodup_fileFields _)
      (lookup_sorted nodup_fileFields _)⟩
  | null =>
    rw [toJson, Json.sorted]
    exact ⟨ofJson_null rfl, ofJson_null (lookup_sorted nodup_nullFields _)⟩

end Tree

end MemShell
