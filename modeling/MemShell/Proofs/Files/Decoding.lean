import MemShell.Fault.Causes
import MemShell.Proofs.Files.Canonical

/-!
# What the decoder accepts

A value describes a tree if its tag names a variant and the fields of the variant, where they are
present, are of the right kind. The decoder accepts these values and no others. Saving what it has
read gives the value in normal form: without other fields, with the absent ones filled in, and with
the entries of directories in the order of their names.
-/

namespace MemShell

namespace Json

/-- A value that describes a tree. -/
inductive IsSaved : Json → Prop
  /-- A null file. -/
  | null {fields : List (Text × Json)}
    (htag : fields.lookup tagField = some (.string Kind.null.name)) : IsSaved (.object fields)
  /-- A file whose text is left out. -/
  | emptyFile {fields : List (Text × Json)}
    (htag : fields.lookup tagField = some (.string Kind.file.name))
    (habsent : fields.lookup textField = none) : IsSaved (.object fields)
  /-- A file with its text. -/
  | file {fields : List (Text × Json)} {text : Text}
    (htag : fields.lookup tagField = some (.string Kind.file.name))
    (htext : fields.lookup textField = some (.string text)) : IsSaved (.object fields)
  /-- A directory whose entries are left out. -/
  | emptyDirectory {fields : List (Text × Json)}
    (htag : fields.lookup tagField = some (.string Kind.directory.name))
    (habsent : fields.lookup entriesField = none) : IsSaved (.object fields)
  /-- A directory with entries that have proper names and describe trees. -/
  | directory {fields entries : List (Text × Json)}
    (htag : fields.lookup tagField = some (.string Kind.directory.name))
    (hentries : fields.lookup entriesField = some (.object entries))
    (valid : ∀ entry ∈ entries, ValidName entry.1) (inner : ∀ entry ∈ entries, IsSaved entry.2) :
    IsSaved (.object fields)

mutual

/-- The normal form of a value that describes a tree; all other values stay as they are. -/
def normalized : Json → Json
  | object fields =>
    match Kind.ofTag ((fields.lookup tagField).getD null) with
    | some .directory => Tree.directoryJson (normalizedDirectory fields)
    | some .file =>
      object [(tagField, .string Kind.file.name),
        (textField, (fields.lookup textField).getD (.string []))]
    | some .null => object [(tagField, .string Kind.null.name)]
    | none => object fields
  | json => json

/-- The normal forms of the entries of a directory whose object has the given fields. -/
def normalizedDirectory : List (Text × Json) → List (Text × Json)
  | [] => []
  | (name, value) :: fields =>
    if name = entriesField then normalizedValue value else normalizedDirectory fields

/-- The normal forms of the entries of an object, in the order of their names. -/
def normalizedValue : Json → List (Text × Json)
  | object entries => sortByName (normalizedEntries entries)
  | _ => []

/-- The normal forms of entries; they keep their own order. -/
def normalizedEntries : List (Text × Json) → List (Text × Json)
  | [] => []
  | (name, value) :: entries => (name, value.normalized) :: normalizedEntries entries

end

/-- The entries of a directory are brought into their normal forms one by one. -/
theorem normalizedEntries_eq (entries : List (Text × Json)) :
    normalizedEntries entries = entries.map fun entry => (entry.1, entry.2.normalized) := by
  induction entries with
  | nil => rw [normalizedEntries]; rfl
  | cons entry entries ih => rw [normalizedEntries, ih]; rfl

/-- The entries of a directory are those of its field for them; without the field there are none. -/
theorem normalizedDirectory_eq (fields : List (Text × Json)) :
    normalizedDirectory fields = ((fields.lookup entriesField).map normalizedValue).getD [] := by
  induction fields with
  | nil => rw [normalizedDirectory]; rfl
  | cons field fields ih =>
    obtain ⟨name, value⟩ := field
    rw [normalizedDirectory, Assoc.lookup_cons_eq_ite]
    by_cases hname : name = entriesField
    · rw [if_pos hname, if_pos hname.symm]
      rfl
    · rw [if_neg hname, if_neg (Ne.symm hname), ih]

end Json

/-- A variant is named by its tag and by nothing else. -/
theorem Kind.ofTag_eq_some_iff {tag : Json} {kind : Kind} :
    ofTag tag = some kind ↔ tag = .string kind.name := by
  constructor
  · intro h
    unfold ofTag at h
    split at h
    · split at h
      · next hname => cases h; rw [hname]
      · split at h
        · next hname => cases h; rw [hname]
        · split at h
          · next hname => cases h; rw [hname]
          · cases h
    · cases h
  · rintro rfl
    cases kind <;> decide

/-- An object has the tag of a variant if its field for the tag holds it. -/
theorem Kind.ofTag_lookup_iff {fields : List (Text × Json)} {kind : Kind} :
    ofTag ((fields.lookup tagField).getD .null) = some kind ↔
      fields.lookup tagField = some (.string kind.name) := by
  rw [ofTag_eq_some_iff]
  cases fields.lookup tagField <;> simp

namespace Tree

variable {fields : List (Text × Json)}

/-- Every field of an object of entries is read. -/
theorem exists_of_ofEntryFields {entries : List (Text × Tree)}
    (h : ofEntryFields fields = .ok entries) :
    ∀ field ∈ fields, ∃ tree, (field.1, tree) ∈ entries ∧ ofJson field.2 = .ok tree := by
  induction fields generalizing entries with
  | nil => exact List.forall_mem_nil _
  | cons field fields ih =>
    obtain ⟨name, value⟩ := field
    rw [ofEntryFields] at h
    cases hvalue : ofJson value with
    | error error => rw [hvalue] at h; cases h
    | ok tree =>
      cases hrest : ofEntryFields fields with
      | error error => rw [hvalue, hrest] at h; cases h
      | ok rest =>
        rw [hvalue, hrest] at h
        cases h
        refine List.forall_mem_cons.2 ⟨⟨tree, List.mem_cons_self, hvalue⟩, fun field hfield => ?_⟩
        obtain ⟨below, hmem, hread⟩ := ih hrest field hfield
        exact ⟨below, List.mem_cons_of_mem _ hmem, hread⟩

/-- Fields that can all be read are read as entries with the same names, whose saved forms are the
normal forms. -/
theorem ofEntryFields_normalized
    (h : ∀ field ∈ fields, ∃ tree, ofJson field.2 = .ok tree ∧ tree.toJson = field.2.normalized) :
    ∃ entries, ofEntryFields fields = .ok entries ∧ Assoc.keys entries = Assoc.keys fields ∧
      entries.map (fun entry => (entry.1, entry.2.toJson)) =
        fields.map fun field => (field.1, field.2.normalized) := by
  induction fields with
  | nil => exact ⟨[], by rw [ofEntryFields], rfl, rfl⟩
  | cons field fields ih =>
    obtain ⟨name, value⟩ := field
    obtain ⟨⟨tree, hread, hform⟩, hrest⟩ := List.forall_mem_cons.1 h
    obtain ⟨entries, hentries, hkeys, hforms⟩ := ih hrest
    refine ⟨(name, tree) :: entries, ?_, congrArg (name :: ·) hkeys, ?_⟩
    · rw [ofEntryFields, hread, hentries]
      rfl
    · rw [List.map_cons, List.map_cons, hforms, hform]

/-- Whatever is read describes a tree, be it the value of a node or of the entries of one. -/
theorem isSaved_of_ofJson {json : Json} (h : json.Distinct) :
    (∀ tree, ofJson json = .ok tree → json.IsSaved) ∧
      ∀ tree, ofEntriesValue json = .ok tree → ∃ entries, json = .object entries ∧
        (∀ entry ∈ entries, ValidName entry.1) ∧ ∀ entry ∈ entries, entry.2.IsSaved := by
  -- an object is met in both parts, so the induction has to carry both
  induction h with
  | @object fields nodup inner ih =>
    constructor
    · intro tree htree
      rw [ofJson] at htree
      split at htree
      · cases htree
      · next hkind =>
        have htag := Kind.ofTag_lookup_iff.1 hkind
        rw [ofDirectoryFields_eq] at htree
        cases hvalue : fields.lookup entriesField with
        | none => exact .emptyDirectory htag hvalue
        | some value =>
          rw [hvalue] at htree
          obtain ⟨entries, rfl, hvalid, hinner⟩ :=
            (ih _ ((Assoc.lookup_eq_some_iff nodup).1 hvalue)).2 tree htree
          exact .directory htag hvalue hvalid hinner
      · next hkind =>
        have htag := Kind.ofTag_lookup_iff.1 hkind
        rw [contentsOf] at htree
        split at htree
        · next habsent => exact .emptyFile htag habsent
        · next htext => exact .file htag htext
        · cases htree
      · next hkind => exact .null (Kind.ofTag_lookup_iff.1 hkind)
    · intro tree htree
      rw [ofEntriesValue] at htree
      cases hentries : ofEntryFields fields with
      | error error => rw [hentries] at htree; cases htree
      | ok entries =>
        rw [hentries] at htree
        obtain ⟨rfl, hvalid⟩ := ofNamed_eq_ok htree
        have hread := exists_of_ofEntryFields hentries
        refine ⟨fields, rfl, fun field hfield => ?_, fun field hfield => ?_⟩
        · obtain ⟨tree, hmem, -⟩ := hread field hfield
          exact hvalid _ hmem
        · obtain ⟨tree, -, htree⟩ := hread field hfield
          exact (ih field hfield).1 tree htree
  | @other json hother =>
    constructor
    · intro tree htree
      cases json with
      | object fields => exact absurd rfl (hother fields)
      | null | bool | int | float | string | array => rw [ofJson] at htree <;> cases htree
    · intro tree htree
      cases json with
      | object fields => exact absurd rfl (hother fields)
      | null | bool | int | float | string | array => rw [ofEntriesValue] at htree <;> cases htree

/-- A value that describes a tree is read, and the saved form of the tree is its normal form. -/
theorem isSaved_ofJson {json : Json} (h : json.IsSaved) :
    ∃ tree, Tree.ofJson json = .ok tree ∧ tree.toJson = json.normalized := by
  induction h with
  | null htag =>
    refine ⟨null, ofJson_null htag, ?_⟩
    rw [toJson, Json.normalized, Kind.ofTag_lookup_iff.2 htag]
  | @emptyFile fields htag habsent =>
    refine ⟨file [], ?_, ?_⟩
    · rw [Tree.ofJson, Kind.ofTag_lookup_iff.2 htag, contentsOf, habsent]
    · rw [toJson, Json.normalized, Kind.ofTag_lookup_iff.2 htag, habsent]
      rfl
  | @file fields text htag htext =>
    refine ⟨file text, ofJson_file htag htext, ?_⟩
    rw [toJson, Json.normalized, Kind.ofTag_lookup_iff.2 htag, htext]
    rfl
  | @emptyDirectory fields htag habsent =>
    refine ⟨directory [], ?_, ?_⟩
    · rw [Tree.ofJson, Kind.ofTag_lookup_iff.2 htag]
      dsimp only
      rw [ofDirectoryFields_eq, habsent]
      rfl
    · rw [toJson_directory, Json.sortByName_nil, Json.normalized, Kind.ofTag_lookup_iff.2 htag]
      dsimp only
      rw [Json.normalizedDirectory_eq, habsent]
      rfl
  | @directory fields entries htag hentries valid inner ih =>
    obtain ⟨trees, hread, hkeys, hforms⟩ := ofEntryFields_normalized ih
    have hvalid : ∀ entry ∈ trees, ValidName entry.1 := by
      intro entry hentry
      have hkey : entry.1 ∈ Assoc.keys entries := hkeys ▸ List.mem_map_of_mem hentry
      obtain ⟨field, hfield, hname⟩ := List.mem_map.1 hkey
      exact hname ▸ valid field hfield
    refine ⟨directory trees, ofJson_directory htag hentries hread hvalid, ?_⟩
    rw [toJson_directory, Json.normalized, Kind.ofTag_lookup_iff.2 htag]
    dsimp only
    rw [Json.normalizedDirectory_eq, hentries, Option.map_some, Option.getD_some,
      Json.normalizedValue, Json.normalizedEntries_eq, ← hforms,
      Json.sortByName_map fun entry : Text × Tree => entry.2.toJson]

/-- A directory of entries is refused for nothing but a name. -/
theorem ofNamed_ne_escaped (entries : List (Text × Tree)) (error : FileError) :
    ofNamed entries ≠ .error (.escaped error) := by
  rw [ofNamed, makeDirectory]
  intro h
  cases hfind : entries.find? fun entry => decide ¬ValidName entry.1 with
  | none => rw [hfind] at h; cases h
  | some entry => rw [hfind] at h; cases h

/-- Fields that are all read or refused for something that is wrong in them are so together. -/
theorem ofEntryFields_ne_escaped {error : FileError}
    (h : ∀ field ∈ fields, ofJson field.2 ≠ .error (.escaped error)) :
    ofEntryFields fields ≠ .error (.escaped error) := by
  induction fields with
  | nil =>
    intro hfails
    rw [ofEntryFields] at hfails
    cases hfails
  | cons field fields ih =>
    obtain ⟨hfirst, hrest⟩ := List.forall_mem_cons.1 h
    intro hfails
    rw [ofEntryFields] at hfails
    cases hread : ofJson field.2 with
    | error other =>
      rw [hread] at hfails
      cases hfails
      exact hfirst hread
    | ok tree =>
      cases hothers : ofEntryFields fields with
      | error other =>
        rw [hread, hothers] at hfails
        cases hfails
        exact ih hrest hothers
      | ok entries =>
        rw [hread, hothers] at hfails
        cases hfails

/-- A value is refused for something that is wrong in it, be it the value of a node or of the
entries of one. -/
theorem ofJson_ne_escaped {json : Json} (h : json.Distinct) (error : FileError) :
    ofJson json ≠ .error (.escaped error) ∧ ofEntriesValue json ≠ .error (.escaped error) := by
  -- an object is met in both parts, so the induction has to carry both
  induction h with
  | @object fields nodup inner ih =>
    constructor
    · intro hfails
      rw [ofJson] at hfails
      split at hfails
      · cases hfails
      · rw [ofDirectoryFields_eq] at hfails
        cases hvalue : fields.lookup entriesField with
        | none =>
          rw [hvalue] at hfails
          cases hfails
        | some value =>
          rw [hvalue] at hfails
          exact (ih _ ((Assoc.lookup_eq_some_iff nodup).1 hvalue)).2 hfails
      · rw [contentsOf] at hfails
        split at hfails <;> cases hfails
      · cases hfails
    · intro hfails
      rw [ofEntriesValue] at hfails
      cases hentries : ofEntryFields fields with
      | error other =>
        rw [hentries] at hfails
        cases hfails
        exact ofEntryFields_ne_escaped (fun field hfield => (ih field hfield).1) hentries
      | ok entries =>
        rw [hentries] at hfails
        exact ofNamed_ne_escaped entries error hfails
  | @other json hother =>
    cases json with
    | object fields => exact absurd rfl (hother fields)
    | null | bool | int | float | string | array =>
      constructor <;> intro hfails
      · rw [ofJson] at hfails <;> cases hfails
      · rw [ofEntriesValue] at hfails <;> cases hfails

/-- A value that is refused is an error in the saved form. -/
theorem fault_kind_of_ofJson {json : Json} (h : json.Distinct) {error : DecodeError}
    (hread : ofJson json = .error error) : error.fault.kind = .serialization := by
  cases error with
  | escaped cause => exact absurd hread (ofJson_ne_escaped h cause).1
  | _ => rfl

/-- A well-formed tree that is put on a disk has the saved form of the tree. -/
theorem WellFormed.toJson_install {tree : Tree} (h : tree.WellFormed) (disk : Disk) :
    (tree.install disk).1.toJson (tree.install disk).2 = tree.toJson := by
  have hnode := h.install disk
  rw [hnode.toJson_eq]
  refine (Node.WellFormed.contents hnode _).toJson_congr h ?_
  funext names
  rw [Node.look_contents]
  exact (stored_install tree disk).view_eq names

end Tree

namespace Json

/-- A value that is read as a tree, put on a disk, and saved again. -/
def resaved (disk : Disk) (json : Json) : Except DecodeError Json :=
  (Tree.ofJson json).map fun tree => (tree.install disk).1.toJson (tree.install disk).2

/-- The saved form of a well-formed node is saved again as it is. -/
theorem resaved_toJson {node : Node} (h : node.WellFormed) (disk other : Disk) :
    resaved other (node.toJson disk) = .ok (node.toJson disk) := by
  have htree := Node.WellFormed.contents h disk
  rw [resaved, h.toJson_eq, htree.ofJson_toJson.1, Except.map, htree.sorted.toJson_install,
    htree.sorted.toJson_congr htree htree.look_sorted]

/-- The decoder reads exactly the values that describe trees, and every other value is an error in
the saved form. What it has read is saved in normal form, and a saved form stays as it is, whether
it has been made from a value or from a node. -/
theorem decoder_normalizes {json : Json} (h : json.Distinct) :
    (json.IsSaved ↔ ∃ tree, Tree.ofJson json = .ok tree) ∧
      (json.IsSaved → ∀ disk, resaved disk json = .ok json.normalized) ∧
      (¬json.IsSaved →
        ∃ error, Tree.ofJson json = .error error ∧ error.fault.kind = .serialization) ∧
      (∀ disk other saved, resaved disk json = .ok saved → resaved other saved = .ok saved) ∧
      ∀ (node : Node) (disk other : Disk), node.WellFormed →
        resaved other (node.toJson disk) = .ok (node.toJson disk) := by
  have hiff : json.IsSaved ↔ ∃ tree, Tree.ofJson json = .ok tree := by
    constructor
    · intro hsaved
      obtain ⟨tree, hread, -⟩ := Tree.isSaved_ofJson hsaved
      exact ⟨tree, hread⟩
    · rintro ⟨tree, hread⟩
      exact (Tree.isSaved_of_ofJson h).1 tree hread
  refine ⟨hiff, fun hsaved disk => ?_, fun hsaved => ?_, fun disk other saved hread => ?_,
    fun node disk other hnode => resaved_toJson hnode disk other⟩
  · obtain ⟨tree, hread, hform⟩ := Tree.isSaved_ofJson hsaved
    have htree := (Tree.wellFormed_of_distinct h).1 tree hread
    rw [resaved, hread, Except.map, htree.toJson_install, hform]
  · cases hread : Tree.ofJson json with
    | ok tree => exact absurd (hiff.2 ⟨tree, hread⟩) hsaved
    | error error => exact ⟨error, rfl, Tree.fault_kind_of_ofJson h hread⟩
  · cases htree : Tree.ofJson json with
    | error error => rw [resaved, htree] at hread; cases hread
    | ok tree =>
      rw [resaved, htree] at hread
      cases hread
      exact resaved_toJson (((Tree.wellFormed_of_distinct h).1 tree htree).install disk) _ _

/-- A directory with entries out of order, fields left out, and fields that mean nothing. -/
def untidy : Json :=
  .object [(['x'], .int 1),
    (entriesField, .object [(['b'], .object [(tagField, .string Kind.file.name)]),
      (['a'], .object [(tagField, .string Kind.null.name), (textField, .array [])])]),
    (tagField, .string Kind.directory.name)]

/-- The names in it are distinct. -/
theorem distinct_untidy : untidy.Distinct := by
  have hscalar {json : Json} (h : ∀ fields, json ≠ .object fields) : json.Distinct := .other h
  refine .object (by decide) (List.forall_mem_cons.2 ⟨hscalar nofun, List.forall_mem_cons.2
    ⟨.object (by decide) ?_, List.forall_mem_singleton.2 (hscalar nofun)⟩⟩)
  refine List.forall_mem_cons.2 ⟨.object (by decide) ?_, List.forall_mem_singleton.2
    (.object (by decide) ?_)⟩
  · exact List.forall_mem_singleton.2 (hscalar nofun)
  · exact List.forall_mem_cons.2 ⟨hscalar nofun, List.forall_mem_singleton.2 (hscalar nofun)⟩

theorem decoder_normalizes_untidy :
    untidy.Distinct ∧ untidy.IsSaved ∧ ∀ disk, resaved disk untidy =
      .ok (Tree.directoryJson [(['a'], .object [(tagField, .string Kind.null.name)]),
        (['b'], .object [(tagField, .string Kind.file.name), (textField, .string [])])]) := by
  have hsaved : untidy.IsSaved := by
    refine .directory rfl rfl (by decide) (List.forall_mem_cons.2 ⟨.emptyFile rfl rfl, ?_⟩)
    exact List.forall_mem_singleton.2 (.null rfl)
  have hform : untidy.normalized =
      Tree.directoryJson [(['a'], .object [(tagField, .string Kind.null.name)]),
        (['b'], .object [(tagField, .string Kind.file.name), (textField, .string [])])] := by
    refine congrArg Tree.directoryJson ?_
    refine (sortByName_eq_of_perm (.swap _ _ _) ?_).trans (sortByName_of_pairwise ?_)
    · decide
    · exact List.pairwise_pair.2 (by decide)
  refine ⟨distinct_untidy, hsaved, fun disk => ?_⟩
  rw [(decoder_normalizes distinct_untidy).2.1 hsaved disk, hform]

end Json

end MemShell
