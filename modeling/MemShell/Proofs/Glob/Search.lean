import MemShell.Proofs.Glob.Choice
import MemShell.Proofs.Json.Sorting

/-!
# The search for choices

The search goes through the segments and the sorted entries of directories. What it finds is written
here as rows of names: the texts that it gives are these rows put into the segments. In a
well-formed file system the rows are exactly the choices for the segments up to the last wildcard,
each once and in lexicographic order. Plain segments after the last wildcard are appended without
being walked.
-/

namespace MemShell.Glob

variable {fs : FileSystem}

/-- The segments that the search walks: those up to the last wildcard, and an empty one, which asks
for a directory, if others follow. -/
def searched : List Text → List Text
  | [] => []
  | segment :: rest =>
    if (segment :: rest).any Marked.hasWildcard then segment :: searched rest else [[]]

/-- The entries of the directory at a path. -/
def listing (fs : FileSystem) (path : Path) : Entries := ((fs.get path).map Node.entries).getD []

/-- The rows of names that the search picks from a path on. -/
def picks (fs : FileSystem) (path : Path) : List Text → List (List Text)
  | [] => [[]]
  | segment :: rest =>
    if !(segment :: rest).any Marked.hasWildcard then [[]]
    else if !Marked.hasWildcard segment then
      if isDirectoryAt fs (walkTo path segment) then picks fs (walkTo path segment) rest else []
    else
      (Json.sortByName (listing fs path)).flatMap fun (name, node) =>
        if matchesName segment name ∧ (rest = [] ∨ node.kind = .directory) then
          (picks fs (path.child name) rest).map (name :: ·)
        else []

/-! ## The search step by step -/

/-- Joined segments hold a wildcard if one of them does. -/
theorem hasWildcard_join (segments : List Text) :
    Marked.hasWildcard (Text.join ['/'] segments) = segments.any Marked.hasWildcard := by
  induction segments with
  | nil => rfl
  | cons segment rest ih =>
    by_cases hrest : rest = []
    · simp [hrest, Text.join]
    · rw [Text.join_cons segment hrest, List.append_assoc, List.singleton_append,
        Marked.hasWildcard_append_slash, ih, List.any_cons]

/-- Marked text holds a wildcard if one of its segments does. -/
theorem any_splitOn (token : Text) :
    (Text.splitOn '/' token).any Marked.hasWildcard = Marked.hasWildcard token := by
  rw [← hasWildcard_join, Text.join_splitOn]

/-- Wildcards after a plain segment are in the segments that follow it. -/
theorem any_of_plain {segment : Text} {rest : List Text}
    (hany : (segment :: rest).any Marked.hasWildcard = true)
    (hsegment : Marked.hasWildcard segment = false) : rest.any Marked.hasWildcard = true := by
  simpa [hsegment] using hany

/-- Where a wildcard is, there is a segment. -/
theorem ne_nil_of_any {segments : List Text} (h : segments.any Marked.hasWildcard = true) :
    segments ≠ [] := by
  rintro rfl
  simp at h

/-- Segments without wildcards are appended as they are. -/
theorem expandFrom_of_plain {segments : List Text} (h : segments.any Marked.hasWildcard = false)
    (path : Path) (written : Text) :
    expandFrom fs path written segments = [written ++ Text.join ['/'] segments] := by
  cases segments with
  | nil => simp [expandFrom, Text.join]
  | cons segment rest =>
    have hjoin : Marked.hasWildcard (Text.join "/" (segment :: rest)) = false :=
      (hasWildcard_join (segment :: rest)).trans h
    rw [expandFrom, hjoin]
    rfl

/-- A plain segment before a wildcard leads on to a directory or nowhere. -/
theorem expandFrom_cons_plain {segment : Text} {rest : List Text}
    (hany : (segment :: rest).any Marked.hasWildcard = true)
    (hsegment : Marked.hasWildcard segment = false) (path : Path) (written : Text) :
    expandFrom fs path written (segment :: rest) =
      if isDirectoryAt fs (walkTo path segment) then
        expandFrom fs (walkTo path segment) (written ++ segment ++ ['/']) rest
      else [] := by
  have hjoin : Marked.hasWildcard (Text.join "/" (segment :: rest)) = true :=
    (hasWildcard_join (segment :: rest)).trans hany
  rw [expandFrom, hjoin, hsegment]
  rfl

/-- A segment with wildcards stands for the entries that it matches, directories if others follow.
-/
theorem expandFrom_cons_wild {segment : Text} (hsegment : Marked.hasWildcard segment = true)
    (rest : List Text) (path : Path) (written : Text) :
    expandFrom fs path written (segment :: rest) =
      (Json.sortByName (listing fs path)).flatMap fun (name, node) =>
        if matchesName segment name ∧ (rest = [] ∨ node.kind = .directory) then
          expandFrom fs (path.child name)
            (written ++ Marked.escape name ++ if rest = [] then [] else ['/']) rest
        else [] := by
  have hany : (segment :: rest).any Marked.hasWildcard = true := by simp [hsegment]
  have hjoin : Marked.hasWildcard (Text.join "/" (segment :: rest)) = true :=
    (hasWildcard_join (segment :: rest)).trans hany
  rw [expandFrom, hjoin, hsegment, listing]
  simp only [Bool.not_true, Bool.false_eq_true, if_false]
  cases fs.get path with
  | none => simp
  | some node =>
    cases node with
    | file inode => simp [Node.entries]
    | null inode => simp [Node.entries]
    | directory inode entries =>
      rw [Option.map_some, Option.getD_some, Node.entries]
      refine congrArg (fun f => List.flatMap f (Json.sortByName entries)) (funext fun entry => ?_)
      obtain ⟨name, node⟩ := entry
      by_cases hrest : rest = []
      · subst hrest
        cases matchesName segment name <;> simp [expandFrom]
      · cases matchesName segment name <;> simp [hrest]

/-- Nothing is picked for segments without wildcards. -/
theorem picks_of_plain {segments : List Text} (h : segments.any Marked.hasWildcard = false)
    (path : Path) : picks fs path segments = [[]] := by
  cases segments with
  | nil => rfl
  | cons segment rest =>
    rw [picks, h]
    rfl

/-- Nothing is picked for a plain segment. -/
theorem picks_cons_plain {segment : Text} {rest : List Text}
    (hany : (segment :: rest).any Marked.hasWildcard = true)
    (hsegment : Marked.hasWildcard segment = false) (path : Path) :
    picks fs path (segment :: rest) =
      if isDirectoryAt fs (walkTo path segment) then picks fs (walkTo path segment) rest
      else [] := by
  rw [picks, hany, hsegment]
  rfl

/-- The name of an entry is picked for a segment with wildcards. -/
theorem picks_cons_wild {segment : Text} (hsegment : Marked.hasWildcard segment = true)
    (rest : List Text) (path : Path) :
    picks fs path (segment :: rest) =
      (Json.sortByName (listing fs path)).flatMap fun (name, node) =>
        if matchesName segment name ∧ (rest = [] ∨ node.kind = .directory) then
          (picks fs (path.child name) rest).map (name :: ·)
        else [] := by
  have hany : (segment :: rest).any Marked.hasWildcard = true := by simp [hsegment]
  rw [picks, hany, hsegment]
  rfl

/-- The search gives the texts of the rows that it picks. -/
theorem expandFrom_eq (path : Path) (written : Text) (segments : List Text) :
    expandFrom fs path written segments =
      (picks fs path segments).map fun names =>
        written ++ Text.join ['/'] (fill segments names) := by
  induction segments generalizing path written with
  | nil => simp [expandFrom, picks, fill, Text.join]
  | cons segment rest ih =>
    cases hany : (segment :: rest).any Marked.hasWildcard with
    | false =>
      rw [expandFrom_of_plain hany, picks_of_plain hany, List.map_singleton, fill_nil]
    | true =>
      cases hsegment : Marked.hasWildcard segment with
      | false =>
        have hrest (names : List Text) : fill rest names ≠ [] :=
          fill_ne_nil (ne_nil_of_any (any_of_plain hany hsegment)) names
        rw [expandFrom_cons_plain hany hsegment, picks_cons_plain hany hsegment]
        split
        · rw [ih]
          refine List.map_congr_left fun names _ => ?_
          rw [fill_cons_plain hsegment, Text.join_cons segment (hrest names)]
          simp only [List.append_assoc]
        · rfl
      | true =>
        rw [expandFrom_cons_wild hsegment, picks_cons_wild hsegment, List.map_flatMap]
        refine congrArg (fun f => List.flatMap f _) (funext fun entry => ?_)
        obtain ⟨name, node⟩ := entry
        dsimp only
        split
        · rw [ih, List.map_map]
          refine List.map_congr_left fun names _ => ?_
          rw [Function.comp_apply, fill_cons_wild hsegment]
          by_cases hrest : rest = []
          · rw [if_pos hrest, hrest]
            simp [fill, Text.join]
          · rw [if_neg hrest, Text.join_cons _ (fill_ne_nil hrest names)]
            simp only [List.append_assoc]
        · rfl

/-! ## What is picked -/

/-- A path is a directory if its names lead to one. -/
theorem isDirectoryAt_iff {path : Path} :
    isDirectoryAt fs path = true ↔ fs.IsDirectory path.parts := by
  simp only [FileSystem.IsDirectory, ← FileSystem.get_eq_directory_iff]
  rw [isDirectoryAt]
  cases fs.get path with
  | none => simp
  | some node => cases node <;> simp

/-- A plain segment leads one step on. -/
theorem parts_walkTo {segment : Text} (h : '/' ∉ segment) (path : Path) :
    (walkTo path segment).parts = Path.step path.parts (Marked.unmark segment) := by
  have hname : '/' ∉ Marked.unmark segment := fun hmem => h (Marked.mem_of_mem_unmark hmem)
  rw [walkTo, Path.step]
  split
  · rfl
  · next hstay =>
    split
    · exact Path.parts_parent path
    · next hup =>
      rw [Path.parts_child_of_not_mem hname, Path.step, if_neg hstay, if_neg hup]

/-- The entries of a directory are listed. -/
theorem listing_of_find {path : Path} {inode : Inode} {entries : Entries}
    (h : fs.find path.parts = some (.directory inode entries)) : listing fs path = entries := by
  rw [listing, FileSystem.get_eq_directory_iff.2 h]
  rfl

/-- What is listed is a directory. -/
theorem isDirectory_of_mem_listing {path : Path} {entry : Text × Node}
    (h : entry ∈ listing fs path) : fs.IsDirectory path.parts := by
  rw [← isDirectoryAt_iff, isDirectoryAt]
  rw [listing] at h
  cases hget : fs.get path with
  | none => simp [hget] at h
  | some node =>
    rw [hget] at h
    cases node with
    | directory inode entries => rfl
    | file inode => simp [Node.entries] at h
    | null inode => simp [Node.entries] at h

/-- In a well-formed file system the listed entries have distinct names. -/
theorem nodup_listing (h : fs.WellFormed) (path : Path) : (Assoc.keys (listing fs path)).Nodup := by
  cases hentries : listing fs path with
  | nil => exact List.nodup_nil
  | cons entry others =>
    have hmem : entry ∈ listing fs path := by simp [hentries]
    obtain ⟨inode, entries, hfind⟩ := isDirectory_of_mem_listing hmem
    rw [← hentries, listing_of_find hfind]
    exact (Node.WellFormed.find h hfind).nodup_keys

/-- In a well-formed file system what is listed is what is found one step down. -/
theorem mem_listing_iff (h : fs.WellFormed) {path : Path} {name : Text} {node : Node} :
    (name, node) ∈ listing fs path ↔ fs.find (path.parts ++ [name]) = some node := by
  constructor
  · intro hmem
    obtain ⟨inode, entries, hfind⟩ := isDirectory_of_mem_listing hmem
    rw [listing_of_find hfind] at hmem
    rw [FileSystem.find_concat hfind]
    exact (Assoc.lookup_eq_some_iff (Node.WellFormed.find h hfind).nodup_keys).2 hmem
  · intro hnode
    obtain ⟨inode, entries, hfind⟩ := FileSystem.isDirectory_of_find_concat hnode
    rw [FileSystem.find_concat hfind] at hnode
    rw [listing_of_find hfind]
    exact (Assoc.lookup_eq_some_iff (Node.WellFormed.find h hfind).nodup_keys).1 hnode

/-- In a well-formed file system listed names are proper names. -/
theorem validName_of_mem_listing (h : fs.WellFormed) {path : Path} {entry : Text × Node}
    (hmem : entry ∈ listing fs path) : ValidName entry.1 := by
  obtain ⟨inode, entries, hfind⟩ := isDirectory_of_mem_listing hmem
  rw [listing_of_find hfind] at hmem
  exact (Node.WellFormed.find h hfind).validName hmem

/-- Of segments without wildcards only their place is searched. -/
theorem searched_of_plain {segments : List Text} (hne : segments ≠ [])
    (h : segments.any Marked.hasWildcard = false) : searched segments = [[]] := by
  obtain ⟨segment, rest, rfl⟩ := List.exists_cons_of_ne_nil hne
  rw [searched, h, if_neg Bool.false_ne_true]

/-- Where there are segments, some are searched. -/
theorem searched_ne_nil {segments : List Text} (h : segments ≠ []) : searched segments ≠ [] := by
  obtain ⟨segment, rest, rfl⟩ := List.exists_cons_of_ne_nil h
  rw [searched]
  split <;> simp

/-- Segments up to the last wildcard are searched. -/
theorem searched_cons {segment : Text} {rest : List Text}
    (h : (segment :: rest).any Marked.hasWildcard = true) :
    searched (segment :: rest) = segment :: searched rest := by
  rw [searched, if_pos h]

private theorem mem_ite_map_cons {p : Prop} [Decidable p] {name : Text} {rows : List (List Text)}
    {names : List Text} :
    names ∈ (if p then rows.map (name :: ·) else []) ↔
      p ∧ ∃ others ∈ rows, name :: others = names := by
  split
  · next hp => rw [List.mem_map, and_iff_right hp]
  · next hp => simp [hp]

/-- For a segment with wildcards exactly the names are picked that it selects and that are found, as
directories if segments follow, each with what is picked below it. -/
theorem mem_picks_cons_wild (hfs : fs.WellFormed) {segment : Text}
    (hsegment : Marked.hasWildcard segment = true) {rest names : List Text} {path : Path} :
    names ∈ picks fs path (segment :: rest) ↔
      ∃ name others, names = name :: others ∧ ValidName name ∧ Selects segment name ∧
        (fs.find (path.parts ++ [name])).isSome ∧
        (rest ≠ [] → fs.IsDirectory (path.parts ++ [name])) ∧
        others ∈ picks fs (path.child name) rest := by
  rw [picks_cons_wild hsegment, List.mem_flatMap]
  constructor
  · rintro ⟨⟨name, node⟩, hentry, hnames⟩
    obtain ⟨⟨hmatch, hkind⟩, others, hothers, rfl⟩ := mem_ite_map_cons.1 hnames
    have hmem := Json.mem_sortByName.1 hentry
    have hvalid : ValidName name := validName_of_mem_listing hfs hmem
    have hnode := (mem_listing_iff hfs).1 hmem
    exact ⟨name, others, rfl, hvalid, (matchesName_iff hvalid.2.2.2).1 hmatch,
      Option.isSome_of_eq_some hnode,
      fun hne => (FileSystem.isDirectory_iff_kind hnode).2 (hkind.resolve_left hne), hothers⟩
  · rintro ⟨name, others, rfl, hvalid, hselects, hfind, hgoes, hothers⟩
    obtain ⟨node, hnode⟩ := Option.isSome_iff_exists.1 hfind
    have hmatch : matchesName segment name = true := (matchesName_iff hvalid.2.2.2).2 hselects
    have hkind : rest = [] ∨ node.kind = .directory :=
      Decidable.or_iff_not_imp_left.2 fun hne =>
        (FileSystem.isDirectory_iff_kind hnode).1 (hgoes hne)
    exact ⟨(name, node), Json.mem_sortByName.2 ((mem_listing_iff hfs).2 hnode),
      mem_ite_map_cons.2 ⟨⟨hmatch, hkind⟩, others, hothers, rfl⟩⟩

/-- In a well-formed file system exactly the choices for the searched segments are picked. -/
theorem mem_picks_iff (hfs : fs.WellFormed) {segments : List Text}
    (hsegments : ∀ segment ∈ segments, '/' ∉ segment) {path : Path}
    (hfind : (fs.find path.parts).isSome) (hdir : segments ≠ [] → fs.IsDirectory path.parts)
    {names : List Text} :
    names ∈ picks fs path segments ↔ IsChoice fs path.parts (searched segments) names := by
  induction segments generalizing path names with
  | nil => simp [picks, searched, isChoice_nil, hfind]
  | cons segment rest ih =>
    obtain ⟨hslash, hrest⟩ := List.forall_mem_cons.1 hsegments
    have hplace : fs.IsDirectory path.parts := hdir (List.cons_ne_nil segment rest)
    cases hany : (segment :: rest).any Marked.hasWildcard with
    | false =>
      rw [picks_of_plain hany, searched_of_plain (List.cons_ne_nil segment rest) hany,
        isChoice_stay]
      simp [hplace]
    | true =>
      rw [searched_cons hany]
      cases hsegment : Marked.hasWildcard segment with
      | false =>
        have hne := ne_nil_of_any (any_of_plain hany hsegment)
        rw [picks_cons_plain hany hsegment, isChoice_cons_plain hsegment, ← parts_walkTo hslash]
        split
        · next hwalk =>
          rw [isDirectoryAt_iff] at hwalk
          rw [ih hrest hwalk.isSome_find fun _ => hwalk, and_iff_right hplace]
        · next hwalk =>
          rw [isDirectoryAt_iff] at hwalk
          have hnone : ¬IsChoice fs (walkTo path segment).parts (searched rest) names :=
            fun hchoice => hwalk (hchoice.isDirectory (searched_ne_nil hne))
          simp [hnone]
      | true =>
        rw [mem_picks_cons_wild hfs hsegment, isChoice_cons_wild hsegment]
        constructor
        · rintro ⟨name, others, rfl, hvalid, hselects, hfound, hgoes, hothers⟩
          rw [← Path.parts_child_of_valid hvalid] at hfound hgoes
          rw [ih hrest hfound hgoes, Path.parts_child_of_valid hvalid] at hothers
          exact ⟨name, others, rfl, hvalid, hselects, hplace, hothers⟩
        · rintro ⟨name, others, rfl, hvalid, hselects, -, hothers⟩
          have hfound := hothers.leads.find
          have hgoes (hne : rest ≠ []) : fs.IsDirectory (path.parts ++ [name]) :=
            hothers.isDirectory (searched_ne_nil hne)
          refine ⟨name, others, rfl, hvalid, hselects, hfound, hgoes, ?_⟩
          rw [← Path.parts_child_of_valid hvalid] at hfound hgoes hothers
          exact (ih hrest hfound hgoes).2 hothers

/-- The rows are picked in strictly increasing lexicographic order. -/
theorem pairwise_picks (hfs : fs.WellFormed) (path : Path) (segments : List Text) :
    (picks fs path segments).Pairwise (· < ·) := by
  induction segments generalizing path with
  | nil => exact List.pairwise_singleton _ _
  | cons segment rest ih =>
    cases hany : (segment :: rest).any Marked.hasWildcard with
    | false =>
      rw [picks_of_plain hany]
      exact List.pairwise_singleton _ _
    | true =>
      cases hsegment : Marked.hasWildcard segment with
      | false =>
        rw [picks_cons_plain hany hsegment]
        split
        · exact ih _
        · exact .nil
      | true =>
        rw [picks_cons_wild hsegment, List.pairwise_flatMap]
        constructor
        · rintro ⟨name, node⟩ -
          dsimp only
          split
          · refine List.pairwise_map.2 ((ih (path.child name)).imp fun h => ?_)
            exact List.cons_lt_cons_iff.2 (.inr ⟨rfl, h⟩)
          · exact .nil
        · refine (Json.pairwise_sortByName (nodup_listing hfs path)).imp fun {a b} hab => ?_
          intro front hfront back hback
          obtain ⟨-, fronts, -, rfl⟩ := mem_ite_map_cons.1 hfront
          obtain ⟨-, backs, -, rfl⟩ := mem_ite_map_cons.1 hback
          exact List.cons_lt_cons_iff.2 (.inl hab)

end MemShell.Glob
