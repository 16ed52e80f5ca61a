import MemShell.Proofs.Glob.Expansion

/-!
# What expanded texts denote

A text that wildcards are expanded to denotes a node if one is found at the path that the text is
for someone at the directory. The segments up to the last wildcard are matched against the file
system, and what follows them is only appended: the expanded texts denote nodes exactly if every
choice for the segments up to the last wildcard goes on to a node. Dots and slashes at the end
always do.
-/

namespace MemShell.Glob

variable {fs : FileSystem} {cwd : Path} {token : Text}

/-- Marked text denotes a node for someone at a directory. -/
def Denotes (fs : FileSystem) (cwd : Path) (text : Text) : Prop :=
  (fs.get (Path.interpret cwd.toText [Marked.unmark text])).isSome

/-- Segments reach a node from a place, whatever lies on the way: the names that they lead to are
found, and are a directory if the last segment is empty. -/
def Reaches (fs : FileSystem) (place segments : List Text) : Prop :=
  (fs.find (segments.foldl Path.step place)).isSome ∧
    (segments.getLast? = some [] → fs.IsDirectory (segments.foldl Path.step place))

/-- The segments after the last one with wildcards. -/
def ending : List Text → List Text
  | [] => []
  | segment :: rest =>
    if rest.any Marked.hasWildcard then ending rest
    else if Marked.hasWildcard segment then rest
    else segment :: rest

/-- Whether a segment stays where it is or goes up. -/
def StaysOrGoesUp (segment : Text) : Prop :=
  Marked.unmark segment = [] ∨ Marked.unmark segment = ['.'] ∨ Marked.unmark segment = ['.', '.']

/-! ## Rendered text as a path -/

/-- Joined segments denote the joined texts of the segments. -/
theorem unmark_join (segments : List Text) :
    Marked.unmark (Text.join ['/'] segments) = Text.join ['/'] (segments.map Marked.unmark) := by
  induction segments with
  | nil => rfl
  | cons segment rest ih =>
    by_cases hrest : rest = []
    · rw [hrest]
      rfl
    · have hmap : rest.map Marked.unmark ≠ [] := by simpa using hrest
      rw [Text.join_cons segment hrest, List.map_cons, Text.join_cons _ hmap, List.append_assoc,
        List.append_assoc, List.singleton_append, List.singleton_append,
        Marked.unmark_append_slash, ih]

/-- Rendered text is cut into the segments that the names were put into. -/
theorem splitOn_unmark_rendered {names : List Text} (hvalid : ∀ name ∈ names, ValidName name) :
    Text.splitOn '/' (Marked.unmark (rendered token names)) =
      (fill (Text.splitOn '/' token) names).map Marked.unmark := by
  have hne : fill (Text.splitOn '/' token) names ≠ [] :=
    fill_ne_nil (Text.splitOn_ne_nil '/' token) names
  have hslash := slash_not_mem_fill
    (fun segment (hs : segment ∈ Text.splitOn '/' token) =>
      Text.separator_not_mem_of_mem_splitOn hs) hvalid
  rw [rendered, unmark_join, Text.splitOn_join (by simpa using hne)]
  intro piece hpiece hmem
  obtain ⟨segment, hsegment, rfl⟩ := List.mem_map.1 hpiece
  exact hslash segment hsegment (Marked.mem_of_mem_unmark hmem)

/-- Putting in names neither makes nor takes away an empty segment at the start. -/
theorem head?_fill {segments names : List Text} (hvalid : ∀ name ∈ names, ValidName name) :
    (fill segments names).head? = some [] ↔ segments.head? = some [] := by
  cases segments with
  | nil => simp [fill]
  | cons segment rest =>
    cases hsegment : Marked.hasWildcard segment with
    | false => rw [fill_cons_plain hsegment, List.head?_cons, List.head?_cons]
    | true =>
      cases names with
      | nil => rw [fill_nil]
      | cons name names =>
        have hname : Marked.escape name ≠ [] := fun h => by
          have hnil : Marked.unmark (Marked.escape name) = [] := by rw [h, Marked.unmark_nil]
          rw [Marked.unmark_escape] at hnil
          exact (hvalid name List.mem_cons_self).1 hnil
        have hempty : segment ≠ [] := fun h => by simp [h] at hsegment
        rw [fill_cons_wild hsegment, List.head?_cons, List.head?_cons]
        simp [hname, hempty]

/-- Rendered text is walked from where the marked text is walked from. -/
theorem startOf_unmark_rendered {names : List Text} (hvalid : ∀ name ∈ names, ValidName name) :
    cwd.startOf (Marked.unmark (rendered token names)) = cwd.startOf token := by
  have hhead : ((fill (Text.splitOn '/' token) names).map Marked.unmark).head? = some [] ↔
      (Text.splitOn '/' token).head? = some [] := by
    refine Iff.trans ?_ (head?_fill hvalid)
    cases fill (Text.splitOn '/' token) names <;> simp [Marked.unmark_eq_nil_iff]
  have hstart : (Marked.unmark (rendered token names)).head? = some '/' ↔
      token.head? = some '/' := by
    rw [Text.head?_eq_some_iff_splitOn, Text.head?_eq_some_iff_splitOn,
      splitOn_unmark_rendered hvalid, hhead, List.length_map, length_fill]
  simp only [Path.startOf, hstart]

/-- Rendered text denotes a node if its segments reach one. -/
theorem denotes_rendered_iff {names : List Text} (hvalid : ∀ name ∈ names, ValidName name) :
    Denotes fs cwd (rendered token names) ↔
      Reaches fs (cwd.startOf token) ((fill (Text.splitOn '/' token) names).map Marked.unmark) := by
  rw [Denotes, FileSystem.isSome_get_iff, Path.isDirectory_interpret, Path.parts_interpret,
    startOf_unmark_rendered hvalid, splitOn_unmark_rendered hvalid, Reaches]
  refine and_congr_right fun hfind => ⟨fun h hlast => h (.inr hlast), ?_⟩
  rintro h (hroot | hlast)
  · rw [hroot]
    exact fs.isDirectory_root
  · exact h hlast

/-! ## Where choices end -/

/-- Going on from a segment, a node is reached if it is reached one step on. -/
theorem reaches_cons {place rest : List Text} {segment : Text} (hne : rest ≠ []) :
    Reaches fs place (segment :: rest) ↔ Reaches fs (Path.step place segment) rest := by
  obtain ⟨next, others, rfl⟩ := List.exists_cons_of_ne_nil hne
  rw [Reaches, Reaches, List.getLast?_cons_cons, List.foldl_cons]

private theorem map_fill_ne_nil {rest : List Text} (h : rest.any Marked.hasWildcard = true)
    (names : List Text) : (fill rest names).map Marked.unmark ≠ [] := by
  simpa using fill_ne_nil (ne_nil_of_any h) names

/-- Going up or staying ends at a directory. -/
theorem isDirectory_foldl {segments place : List Text} (h : ∀ s ∈ segments, StaysOrGoesUp s)
    (hdir : fs.IsDirectory place) :
    fs.IsDirectory ((segments.map Marked.unmark).foldl Path.step place) := by
  induction segments generalizing place with
  | nil => exact hdir
  | cons segment rest ih =>
    rw [List.forall_mem_cons] at h
    have hstep : fs.IsDirectory (Path.step place (Marked.unmark segment)) := by
      rw [Path.step]
      rcases h.1 with hempty | hdot | hdots
      · rwa [if_pos (.inl hempty)]
      · rwa [if_pos (.inr hdot)]
      · rw [hdots]
        exact hdir.dropLast
    exact ih h.2 hstep

/-- A choice for the searched segments goes on to a node if what follows stays or goes up. -/
theorem IsChoice.reaches {place segments names : List Text}
    (hany : segments.any Marked.hasWildcard = true)
    (hending : ∀ s ∈ ending segments, StaysOrGoesUp s)
    (h : IsChoice fs place (Glob.searched segments) names) :
    Reaches fs place ((fill segments names).map Marked.unmark) := by
  induction segments generalizing place names with
  | nil => simp at hany
  | cons segment rest ih =>
    rw [searched_cons hany] at h
    cases hmore : rest.any Marked.hasWildcard with
    | true =>
      rw [ending, if_pos hmore] at hending
      cases hsegment : Marked.hasWildcard segment with
      | false =>
        rw [isChoice_cons_plain hsegment] at h
        rw [fill_cons_plain hsegment, List.map_cons, reaches_cons (map_fill_ne_nil hmore names)]
        exact ih hmore hending h.2
      | true =>
        obtain ⟨name, others, rfl, hvalid, -, -, hothers⟩ := (isChoice_cons_wild hsegment).1 h
        rw [fill_cons_wild hsegment, List.map_cons, Marked.unmark_escape,
          reaches_cons (map_fill_ne_nil hmore others), Path.step_of_valid hvalid]
        exact ih hmore hending hothers
    | false =>
      have hsegment : Marked.hasWildcard segment = true := by simpa [hmore] using hany
      rw [ending, hmore, if_neg Bool.false_ne_true, if_pos hsegment] at hending
      obtain ⟨name, others, rfl, hvalid, -, -, hothers⟩ := (isChoice_cons_wild hsegment).1 h
      have hstep : Path.step place name = place ++ [name] := Path.step_of_valid hvalid place
      rw [fill_cons_wild hsegment, List.map_cons, Marked.unmark_escape]
      by_cases hrest : rest = []
      · rw [hrest, Glob.searched, isChoice_nil] at hothers
        rw [hrest, hothers.1, fill_nil, List.map_nil, Reaches, List.foldl_cons, hstep]
        exact ⟨hothers.2, fun hlast => absurd (Option.some.inj hlast) hvalid.1⟩
      · rw [searched_of_plain hrest hmore, isChoice_stay] at hothers
        have hmap : rest.map Marked.unmark ≠ [] := by simpa using hrest
        have hdir := isDirectory_foldl hending hothers.2
        rw [hothers.1, fill_nil, reaches_cons hmap, hstep]
        exact ⟨hdir.isSome_find, fun _ => hdir⟩

/-! ## When expanded texts denote nodes -/

/-- The texts that wildcards are expanded to all denote nodes exactly if every choice for the
segments up to the last wildcard goes on to a node. -/
theorem forall_denotes_iff (hfs : fs.WellFormed) (hcwd : isDirectoryAt fs cwd = true)
    (htoken : Marked.hasWildcard token = true) :
    (∀ found, expand? fs cwd token = some found → ∀ text ∈ found, Denotes fs cwd text) ↔
      ∀ names, IsChoice fs (cwd.startOf token) (searched (Text.splitOn '/' token)) names →
        Reaches fs (cwd.startOf token)
          ((fill (Text.splitOn '/' token) names).map Marked.unmark) := by
  rw [forall_mem_expand?_iff hcwd htoken]
  constructor
  · intro h names hchoice
    have hnames := (mem_picked_iff hfs hcwd htoken).2 hchoice
    exact (denotes_rendered_iff hchoice.valid).1 (h names hnames)
  · intro h names hnames
    have hchoice := (mem_picked_iff hfs hcwd htoken).1 hnames
    exact (denotes_rendered_iff hchoice.valid).2 (h names hchoice)

/-- At a directory of a well-formed file system, the texts that wildcards are expanded to all denote
nodes exactly if every choice for the segments up to the last wildcard goes on to a node; they do if
nothing but empty segments and dots follows the last wildcard. -/
theorem expand?_denotes_iff (hfs : fs.WellFormed) (hcwd : isDirectoryAt fs cwd = true)
    (htoken : Marked.hasWildcard token = true) :
    ((∀ found, expand? fs cwd token = some found → ∀ text ∈ found, Denotes fs cwd text) ↔
      ∀ names, IsChoice fs (cwd.startOf token) (searched (Text.splitOn '/' token)) names →
        Reaches fs (cwd.startOf token) ((fill (Text.splitOn '/' token) names).map Marked.unmark)) ∧
      ((∀ segment ∈ ending (Text.splitOn '/' token), StaysOrGoesUp segment) →
        ∀ found, expand? fs cwd token = some found → ∀ text ∈ found, Denotes fs cwd text) := by
  have hany : (Text.splitOn '/' token).any Marked.hasWildcard = true := by
    rw [any_splitOn, htoken]
  have hiff := forall_denotes_iff hfs hcwd htoken
  exact ⟨hiff, fun hending => hiff.2 fun names hchoice => hchoice.reaches hany hending⟩

/-- Any name, and a file `x` below it. -/
def anyWithX : Text := Marked.wildcard '*' ++ ['/', 'x']

theorem expand?_denotes_iff_roundabout :
    shelves.WellFormed ∧ isDirectoryAt shelves .root = true ∧
      Marked.hasWildcard roundabout = true ∧
      ((∀ found, expand? shelves .root roundabout = some found →
          ∀ text ∈ found, Denotes shelves .root text) ↔
        ∀ names, IsChoice shelves (Path.root.startOf roundabout)
            (searched (Text.splitOn '/' roundabout)) names →
          Reaches shelves (Path.root.startOf roundabout)
            ((fill (Text.splitOn '/' roundabout) names).map Marked.unmark)) ∧
      ∀ found, expand? shelves .root roundabout = some found →
        ∀ text ∈ found, Denotes shelves .root text := by
  have h := expand?_denotes_iff wellFormed_shelves
    (by decide : isDirectoryAt shelves .root = true)
    (by decide : Marked.hasWildcard roundabout = true)
  have hending : ending (Text.splitOn '/' roundabout) = [] := by decide
  refine ⟨wellFormed_shelves, by decide, by decide, h.1, h.2 ?_⟩
  rw [hending]
  exact fun segment hs => absurd hs List.not_mem_nil

private theorem picked_anyWithX : picked shelves .root anyWithX = [[['d']], [['e']]] := by
  have hsplit : Text.splitOn '/' anyWithX = [Marked.wildcard '*', ['x']] := by decide
  have hwild : Marked.hasWildcard (Marked.wildcard '*') = true := by decide
  have hlist : listing shelves .root = shelves.entries := rfl
  have hsort : Json.sortByName shelves.entries = shelves.entries :=
    Json.sortByName_of_pairwise (by decide)
  change picks shelves .root (Text.splitOn '/' anyWithX) = _
  rw [hsplit, picks_cons_wild hwild, hlist, hsort]
  rfl

/-- The directory `d` is matched, and the text that leads on to `x` in it denotes nothing. -/
theorem expand?_not_denotes_anyWithX :
    shelves.WellFormed ∧ isDirectoryAt shelves .root = true ∧ Marked.hasWildcard anyWithX = true ∧
      expand? shelves .root anyWithX = some [['d', '/', 'x'], ['e', '/', 'x']] ∧
      ¬Denotes shelves .root ['d', '/', 'x'] := by
  have hcwd : isDirectoryAt shelves .root = true := by decide
  have htoken : Marked.hasWildcard anyWithX = true := by decide
  refine ⟨wellFormed_shelves, hcwd, htoken, ?_, ?_⟩
  · rw [expand?_eq hcwd htoken, picked_anyWithX]
    rfl
  · unfold Denotes
    decide

end MemShell.Glob
