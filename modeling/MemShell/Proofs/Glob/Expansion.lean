import MemShell.Proofs.Glob.Search
import Mathlib.Data.List.Count

/-!
# Expansion of wildcards

The texts that marked text stands for at a directory. A search from the directory, or from the root
for absolute text, gives the rendered rows of names that it picks; every choice of names is among
them and is rendered once, the texts are distinct and ordered by their names, and the expansion
fails only if there is no choice.
-/

namespace MemShell.Glob

variable {fs : FileSystem} {cwd : Path} {token : Text}

/-- The rows of names that are picked for marked text at a directory. -/
def picked (fs : FileSystem) (cwd : Path) (token : Text) : List (List Text) :=
  picks fs (anchor cwd token).1 (Text.splitOn '/' (anchor cwd token).2.2)

/-! ## Where the search starts -/

/-- Other text is searched from the directory. -/
theorem anchor_of_head? (cwd : Path) (h : token.head? ≠ some '/') :
    anchor cwd token = (cwd, [], token) := by
  rw [anchor]
  rintro rest rfl
  exact h rfl

/-- The search starts from a directory if the one that it is made at exists. -/
theorem isDirectory_anchor (hcwd : isDirectoryAt fs cwd = true) (token : Text) :
    isDirectoryAt fs (anchor cwd token).1 = true := by
  by_cases h : token.head? = some '/'
  · obtain ⟨rest, rfl⟩ := List.head?_eq_some_iff.1 h
    exact isDirectoryAt_iff.2 fs.isDirectory_root
  · rwa [anchor_of_head? cwd h]

/-- A picked row is rendered as the search writes it. -/
theorem written_append (cwd : Path) (token : Text) (names : List Text) :
    (anchor cwd token).2.1 ++
        Text.join ['/'] (fill (Text.splitOn '/' (anchor cwd token).2.2) names) =
      rendered token names := by
  by_cases h : token.head? = some '/'
  · obtain ⟨rest, rfl⟩ := List.head?_eq_some_iff.1 h
    rw [rendered, Text.splitOn_cons, fill_cons_plain Marked.hasWildcard_nil,
      Text.join_cons [] (fill_ne_nil (Text.splitOn_ne_nil '/' rest) names)]
    rfl
  · rw [anchor_of_head? cwd h, rendered]
    rfl

/-- What marked text with wildcards stands for are the rendered rows that are picked. -/
theorem expand?_eq (hcwd : isDirectoryAt fs cwd = true) (htoken : Marked.hasWildcard token = true) :
    expand? fs cwd token =
      match picked fs cwd token with
      | [] => none
      | rows => some (rows.map (rendered token)) := by
  have hsearch : expandFrom fs (anchor cwd token).1 (anchor cwd token).2.1
      (Text.splitOn '/' (anchor cwd token).2.2) = (picked fs cwd token).map (rendered token) := by
    rw [expandFrom_eq, picked]
    exact List.map_congr_left fun names _ => written_append cwd token names
  rw [expand?, isSearched, htoken, isDirectory_anchor hcwd token]
  simp only [Bool.and_self, Bool.not_true, Bool.false_eq_true, if_false]
  rw [hsearch]
  cases picked fs cwd token <;> rfl

/-- A property of all texts that are found is one of all rows that are picked. -/
theorem forall_mem_expand?_iff (hcwd : isDirectoryAt fs cwd = true)
    (htoken : Marked.hasWildcard token = true) {p : Text → Prop} :
    (∀ found, expand? fs cwd token = some found → ∀ text ∈ found, p text) ↔
      ∀ names ∈ picked fs cwd token, p (rendered token names) := by
  rw [expand?_eq hcwd htoken]
  cases picked fs cwd token <;> simp

/-- In a well-formed file system exactly the choices for the searched segments are picked. -/
theorem mem_picked_iff (hfs : fs.WellFormed) (hcwd : isDirectoryAt fs cwd = true)
    (htoken : Marked.hasWildcard token = true) {names : List Text} :
    names ∈ picked fs cwd token ↔
      IsChoice fs (cwd.startOf token) (searched (Text.splitOn '/' token)) names := by
  have hdir := isDirectoryAt_iff.1 (isDirectory_anchor hcwd token)
  rw [picked, mem_picks_iff hfs
    (fun segment hs => Text.separator_not_mem_of_mem_splitOn hs) hdir.isSome_find fun _ => hdir]
  by_cases h : token.head? = some '/'
  · obtain ⟨rest, rfl⟩ := List.head?_eq_some_iff.1 h
    have hany : ([] :: Text.splitOn '/' rest).any Marked.hasWildcard = true := by
      rw [← Text.splitOn_cons, any_splitOn, htoken]
    rw [Text.splitOn_cons, searched_cons hany, isChoice_cons_plain Marked.hasWildcard_nil,
      Path.startOf, if_pos h, and_iff_right fs.isDirectory_root]
    rfl
  · rw [anchor_of_head? cwd h, Path.startOf, if_neg h]

/-- A choice for all segments is one for the searched segments. -/
theorem IsChoice.searched {place segments names : List Text}
    (h : IsChoice fs place segments names) : IsChoice fs place (searched segments) names := by
  induction segments generalizing place names with
  | nil => exact h
  | cons segment rest ih =>
    cases hany : (segment :: rest).any Marked.hasWildcard with
    | false =>
      have hnames : names = [] :=
        List.forall₂_nil_left_iff.1 (wildSegments_of_plain hany ▸ h.selected)
      rw [searched_of_plain (List.cons_ne_nil segment rest) hany, isChoice_stay]
      exact ⟨hnames, h.isDirectory (List.cons_ne_nil segment rest)⟩
    | true =>
      rw [searched_cons hany]
      cases hsegment : Marked.hasWildcard segment with
      | false =>
        rw [isChoice_cons_plain hsegment] at h ⊢
        exact ⟨h.1, ih h.2⟩
      | true =>
        rw [isChoice_cons_wild hsegment] at h ⊢
        obtain ⟨name, others, rfl, hvalid, hselects, hdir, hothers⟩ := h
        exact ⟨name, others, rfl, hvalid, hselects, hdir, ih hothers⟩

/-- The wildcards of a text are in the segments that are searched. -/
theorem wildSegments_searched (segments : List Text) :
    wildSegments (searched segments) = wildSegments segments := by
  induction segments with
  | nil => rfl
  | cons segment rest ih =>
    cases hany : (segment :: rest).any Marked.hasWildcard with
    | false =>
      rw [searched_of_plain (List.cons_ne_nil segment rest) hany, wildSegments_of_plain hany]
      rfl
    | true =>
      rw [searched_cons hany]
      cases hsegment : Marked.hasWildcard segment with
      | false => rw [wildSegments_cons_plain hsegment, wildSegments_cons_plain hsegment, ih]
      | true => rw [wildSegments_cons_wild hsegment, wildSegments_cons_wild hsegment, ih]

/-- Different choices of proper names are rendered differently. -/
theorem rendered_injective {names others : List Text}
    (hnames : List.Forall₂ Selects (wildSegments (Text.splitOn '/' token)) names)
    (hothers : List.Forall₂ Selects (wildSegments (Text.splitOn '/' token)) others)
    (hvalid : ∀ name ∈ names, ValidName name) (hproper : ∀ name ∈ others, ValidName name)
    (h : rendered token names = rendered token others) : names = others := by
  have hslash (segment : Text) (hs : segment ∈ Text.splitOn '/' token) : '/' ∉ segment :=
    Text.separator_not_mem_of_mem_splitOn hs
  have hne (row : List Text) : fill (Text.splitOn '/' token) row ≠ [] :=
    fill_ne_nil (Text.splitOn_ne_nil '/' token) row
  have hcut := congrArg (Text.splitOn '/') h
  rw [rendered, rendered, Text.splitOn_join (hne names) (slash_not_mem_fill hslash hvalid),
    Text.splitOn_join (hne others) (slash_not_mem_fill hslash hproper)] at hcut
  exact fill_injective hnames.length_eq hothers.length_eq hcut

/-! ## Every choice once, in order -/

/-- Texts that list the choices of names for marked text at a directory. -/
structure ListsChoices (fs : FileSystem) (cwd : Path) (token : Text) (found : List Text) :
    Prop where
  /-- The text of every choice is listed exactly once. -/
  count_choice : ∀ names, IsChoice fs (cwd.startOf token) (Text.splitOn '/' token) names →
    found.count (rendered token names) = 1
  /-- The texts are rows of names put into the segments with wildcards, which select them, in
  strictly increasing lexicographic order of the rows. -/
  rows : ∃ rows : List (List Text), found = rows.map (rendered token) ∧ rows.Pairwise (· < ·) ∧
    ∀ names ∈ rows, (∀ name ∈ names, ValidName name) ∧
      List.Forall₂ Selects (wildSegments (Text.splitOn '/' token)) names
  /-- No text is listed twice. -/
  nodup : found.Nodup

/-- In a well-formed file system the rendered rows that are picked list the choices. -/
theorem listsChoices_picked (hfs : fs.WellFormed) (hcwd : isDirectoryAt fs cwd = true)
    (htoken : Marked.hasWildcard token = true) :
    ListsChoices fs cwd token ((picked fs cwd token).map (rendered token)) := by
  have hrow {names : List Text} (h : names ∈ picked fs cwd token) :
      (∀ name ∈ names, ValidName name) ∧
        List.Forall₂ Selects (wildSegments (Text.splitOn '/' token)) names := by
    have hchoice := (mem_picked_iff hfs hcwd htoken).1 h
    exact ⟨hchoice.valid, wildSegments_searched _ ▸ hchoice.selected⟩
  have hsorted : (picked fs cwd token).Pairwise (· < ·) := pairwise_picks hfs _ _
  have hdistinct : ((picked fs cwd token).map (rendered token)).Nodup := by
    refine List.Nodup.map_on (fun names hnames others hothers h => ?_) hsorted.nodup
    exact rendered_injective (hrow hnames).2 (hrow hothers).2 (hrow hnames).1 (hrow hothers).1 h
  refine ⟨fun names hchoice => ?_, ⟨picked fs cwd token, rfl, hsorted, fun _ => hrow⟩, hdistinct⟩
  have hmem := (mem_picked_iff hfs hcwd htoken).2 hchoice.searched
  exact List.count_eq_one_of_mem hdistinct (List.mem_map_of_mem hmem)

/-- At a directory of a well-formed file system, marked text with wildcards stands for texts that
list its choices, and it stands for nothing only if there is no choice. -/
theorem expand?_listsChoices (hfs : fs.WellFormed) (hcwd : isDirectoryAt fs cwd = true)
    (htoken : Marked.hasWildcard token = true) :
    (∀ found, expand? fs cwd token = some found → ListsChoices fs cwd token found) ∧
      (expand? fs cwd token = none →
        ∀ names, ¬IsChoice fs (cwd.startOf token) (Text.splitOn '/' token) names) := by
  have hlists := listsChoices_picked hfs hcwd htoken
  rw [expand?_eq hcwd htoken]
  cases hpicked : picked fs cwd token with
  | nil =>
    refine ⟨fun found h => by simp at h, fun _ names hchoice => ?_⟩
    have hmem := (mem_picked_iff hfs hcwd htoken).2 hchoice.searched
    rw [hpicked] at hmem
    exact List.not_mem_nil hmem
  | cons names rows =>
    rw [hpicked] at hlists
    refine ⟨fun found h => ?_, fun h => by simp at h⟩
    rw [← Option.some.inj h]
    exact hlists

/-- A directory `d` with a file `a`, and a directory `e` with a file `x`. -/
def shelves : FileSystem :=
  ⟨0, [(['d'], .directory 1 [(['a'], .file 2)]), (['e'], .directory 3 [(['x'], .file 4)])],
    ⟨#[[], [], [], [], []]⟩⟩

/-- Any name, back up, and one character in the directory `e`. -/
def roundabout : Text :=
  Marked.wildcard '*' ++ ['/', '.', '.', '/', 'e', '/'] ++ Marked.wildcard '?'

/-- The two directories hold one file each. -/
theorem wellFormed_shelves : shelves.WellFormed := by
  have hd : (Node.directory 1 [(['a'], .file 2)]).WellFormed :=
    .directory (by decide) (by decide) (List.forall_mem_singleton.2 (.file 2))
  have he : (Node.directory 3 [(['x'], .file 4)]).WellFormed :=
    .directory (by decide) (by decide) (List.forall_mem_singleton.2 (.file 4))
  exact .directory (by decide) (by decide)
    (List.forall_mem_cons.2 ⟨hd, List.forall_mem_singleton.2 he⟩)

theorem expand?_listsChoices_roundabout :
    shelves.WellFormed ∧ isDirectoryAt shelves .root = true ∧
      Marked.hasWildcard roundabout = true ∧
      (∀ found, expand? shelves .root roundabout = some found →
        ListsChoices shelves .root roundabout found) ∧
      (expand? shelves .root roundabout = none →
        ∀ names, ¬IsChoice shelves (Path.root.startOf roundabout)
          (Text.splitOn '/' roundabout) names) :=
  ⟨wellFormed_shelves, by decide, by decide,
    expand?_listsChoices wellFormed_shelves (by decide) (by decide)⟩

end MemShell.Glob
