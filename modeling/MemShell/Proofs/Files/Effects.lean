import MemShell.Proofs.Files.Preparation

/-!
# Effects of the operations

A file system seen from outside is a map from lists of names to what is there. An operation that
succeeds changes this map at the paths it is given and nowhere else: it grafts a subtree, clears
one, or empties a file.
-/

namespace MemShell

/-- What is at every list of names. -/
abbrev FileMap := List Text → FileSystem.View

namespace FileMap

/-- What a map shows below a place. -/
def below (map : FileMap) (place : List Text) : FileMap := fun names => map (place ++ names)

/-- A map with what another map shows at a place and below it. -/
def graft (map : FileMap) (place : List Text) (branch : FileMap) : FileMap := fun names =>
  if place <+: names then branch (names.drop place.length) else map names

/-- A map with directories above a place. -/
def raise (map : FileMap) (place : List Text) : FileMap := fun names =>
  if names <+: place ∧ names ≠ place then .directory else map names

/-- A map with nothing at a place and below it; the root stays. -/
def clear (map : FileMap) (place : List Text) : FileMap := fun names =>
  if place <+: names ∧ names ≠ [] then .absent else map names

/-- Whether there is something at a path, a directory if the path ends with a slash. -/
def Resolves (map : FileMap) (path : Path) : Prop :=
  map path.parts ≠ .absent ∧ (path.isDirectory = true → map path.parts = .directory)

instance (map : FileMap) (path : Path) : Decidable (map.Resolves path) :=
  inferInstanceAs (Decidable (_ ∧ _))

/-- A map after the file at a place has been opened: it is made if nothing is there, and emptied if
it is opened to be written. -/
def touch (map : FileMap) (place : List Text) (mode : OpenMode) : FileMap := fun names =>
  if names = place then
    match map names with
    | .absent => .file []
    | .file text => if mode = .write then .file [] else .file text
    | view => view
  else map names

/-- Opening a file once more in the same mode changes nothing. -/
theorem touch_touch (map : FileMap) (place : List Text) (mode : OpenMode) :
    (map.touch place mode).touch place mode = map.touch place mode := by
  funext names
  by_cases hnames : names = place
  · cases hview : map names <;> cases mode <;> simp [touch, hnames ▸ hview, hnames]
  · simp only [touch, if_neg hnames]

end FileMap

namespace FileSystem

variable {fs : FileSystem}

/-! ## Nodes that stay the same -/

/-- A file system stays numbered if every node in it was at another place before. -/
theorem Numbered.of_origin {after : FileSystem} (h : fs.Numbered)
    (origin : List Text → List Text) (hnext : fs.disk.next ≤ after.disk.next)
    (hstat : ∀ {names found}, after.stat names = some found → fs.stat (origin names) = some found)
    (hinj : ∀ {names others}, after.stat names ≠ none → after.stat others ≠ none →
      origin names = origin others → names = others) : after.Numbered where
  lt_next hnames := Nat.lt_of_lt_of_le (h.lt_next (hstat hnames)) hnext
  eq_of_inode hnames hothers :=
    hinj (by simp [hnames]) (by simp [hothers]) (h.eq_of_inode (hstat hnames) (hstat hothers))

/-- A node found at a path is found by its names. -/
theorem find_of_get {path : Path} {node : Node} (h : fs.get path = some node) :
    fs.find path.parts = some node := by
  rw [get] at h
  split at h
  · next found hfind =>
    split at h
    · cases h
    · rwa [← h]
  · cases h

/-- Something is found at a path if the path resolves. -/
theorem isSome_get_iff_resolves {path : Path} :
    (fs.get path).isSome ↔ FileMap.Resolves fs.look path := by
  rw [isSome_get_iff, FileMap.Resolves, isDirectory_iff_look, Option.isSome_iff_ne_none, ne_eq,
    find_eq_none_iff_look]

/-- The names of a node below another are looked up below that node. -/
theorem stat_append {names : List Text} {node : Node} (h : fs.find names = some node)
    (rest : List Text) : fs.stat (names ++ rest) = node.stat rest := by
  rw [stat, Node.stat_append, ← find, h]
  rfl

/-- The parent of a path at which something is found is a directory. -/
theorem isDirectory_parent {path : Path} {node : Node} (hpath : path.parts ≠ [])
    (h : fs.find path.parts = some node) : fs.IsDirectory path.parent.parts := by
  rw [← parts_eq_concat hpath] at h
  exact isDirectory_of_find_concat h

/-- A node that is linked under a path is found there. -/
theorem find_link (fs : FileSystem) {path : Path} (hpath : path.parts ≠ [])
    (hdir : fs.IsDirectory path.parent.parts) (node : Node) :
    (fs.link path node).find path.parts = some node := by
  obtain ⟨inode, entries, hfind⟩ := hdir
  have hparent : (fs.link path node).find path.parent.parts =
      some (.directory inode (Assoc.put path.fileName node entries)) := Node.find_changeAt hfind
  rw [← parts_eq_concat hpath, find_concat hparent, Assoc.lookup_put, if_pos rfl]

/-! ## Adding and copying -/

/-- A tree is attached to a path that has been prepared, or nothing changes. -/
theorem add_allOrNothing (target : Path) (tree : Tree) (createParents : Bool) (fs : FileSystem) :
    (add target tree createParents).AllOrNothing fs fs fun node after =>
      ∃ made, Prepared target createParents fs made ∧
        node = (tree.install made.disk).1 ∧ after = made.attach target tree :=
  (prepare_allOrNothing target tree.kind createParents fs).bind fun _ made hmade =>
    ⟨made, hmade, rfl, rfl⟩

/-- A tree that is added is seen at its path, below directories if they were to be made. -/
theorem Prepared.look_attach {target : Path} {createParents : Bool} {made : FileSystem}
    (h : Prepared target createParents fs made) (hfs : fs.Numbered) (tree : Tree) :
    (made.attach target tree).look =
      FileMap.graft (if createParents then FileMap.raise fs.look target.parts else fs.look)
        target.parts tree.look := by
  funext names
  rw [FileSystem.look_attach h.parts_ne_nil h.isDirectory (h.numbered hfs), FileMap.graft,
    h.look hfs]
  cases createParents <;> simp [FileMap.raise]

/-- A tree that is added keeps the numbers apart. -/
theorem Prepared.numbered_attach {target : Path} {createParents : Bool} {made : FileSystem}
    (h : Prepared target createParents fs made) (hfs : fs.Numbered) (tree : Tree) :
    (made.attach target tree).Numbered :=
  (h.numbered hfs).attach h.parts_ne_nil h.isDirectory tree

/-- The contents of a node are seen as what is below it. -/
theorem look_contents {names : List Text} {node : Node} (h : fs.find names = some node) :
    (node.contents fs.disk).look = FileMap.below fs.look names := by
  funext rest
  rw [Node.look_contents, FileMap.below, look_eq, stat_append h]

/-! ## Moving -/

section Move

variable {source destination : Path} {node : Node}

/-- Neither of the paths of a move lies at or below the other. -/
theorem Prepared.apart (h : Prepared destination false fs fs)
    (hsource : fs.find source.parts = some node)
    (habove : ¬source.isAncestorOf destination = true) :
    ¬destination.parts <+: source.parts ∧ ¬source.parts <+: destination.parts := by
  constructor
  · intro hunder
    rw [find_eq_none_below hunder h.absent] at hsource
    cases hsource
  · intro hunder
    have hlength : ¬source.parts.length < destination.parts.length := fun hlt =>
      habove (by simp [Path.isAncestorOf, hlt, hunder])
    rw [hunder.eq_of_length_le (Nat.not_lt.1 hlength), h.absent] at hsource
    cases hsource

/-- The node at the source and everything below it goes to the destination. -/
theorem Prepared.stat_move (h : Prepared destination false fs fs)
    (hsource : fs.find source.parts = some node)
    (habove : ¬source.isAncestorOf destination = true) (names : List Text) :
    ((fs.link destination node).unlink source).stat names =
      if destination.parts <+: names then
        fs.stat (source.parts ++ names.drop destination.parts.length)
      else if source.parts <+: names then none
      else fs.stat names := by
  obtain ⟨hdestination, hbelow⟩ := h.apart hsource habove
  have hroot : source.parts ≠ [] := fun hnil => hbelow (hnil ▸ List.nil_prefix)
  have hlink := stat_link fs h.parts_ne_nil h.isDirectory node
  have hparent : (fs.link destination node).IsDirectory source.parent.parts := by
    have hunder : ¬destination.parts <+: source.parent.parts := fun hunder =>
      hdestination (hunder.trans (by rw [Path.parts_parent]; exact List.dropLast_prefix _))
    rw [isDirectory_iff_stat, hlink, if_neg hunder, ← isDirectory_iff_stat]
    exact isDirectory_parent hroot hsource
  rw [stat_unlink hroot hparent, hlink]
  by_cases hnames : destination.parts <+: names
  · have hother : ¬source.parts <+: names := fun hunder =>
      (List.prefix_or_prefix_of_prefix hnames hunder).elim hdestination hbelow
    rw [if_neg hother, if_pos hnames, if_pos hnames, stat_append hsource]
  · rw [if_neg hnames, if_neg hnames]

/-- A move keeps the numbers apart. -/
theorem Prepared.numbered_move (h : Prepared destination false fs fs)
    (hsource : fs.find source.parts = some node)
    (habove : ¬source.isAncestorOf destination = true) (hfs : fs.Numbered) :
    ((fs.link destination node).unlink source).Numbered := by
  have hstat := h.stat_move hsource habove
  -- Every node at or below the destination comes from the place that it had below the source.
  refine hfs.of_origin (fun names =>
    if destination.parts <+: names then source.parts ++ names.drop destination.parts.length
    else names) (Nat.le_refl _) (fun {names found} hfound => ?_)
    (fun {names others} hnames hothers heq => ?_)
  · rw [hstat] at hfound
    split at hfound
    · next hunder => rwa [if_pos hunder]
    · next hunder =>
      rw [if_neg hunder]
      split at hfound
      · cases hfound
      · exact hfound
  · rw [hstat] at hnames hothers
    by_cases hn : destination.parts <+: names <;> by_cases ho : destination.parts <+: others
    · obtain ⟨rest, rfl⟩ := hn
      obtain ⟨back, rfl⟩ := ho
      simpa using heq
    · simp only [if_pos hn, if_neg ho] at heq hothers
      rw [← heq, if_pos (List.prefix_append _ _)] at hothers
      exact absurd rfl hothers
    · simp only [if_neg hn, if_pos ho] at heq hnames
      rw [heq, if_pos (List.prefix_append _ _)] at hnames
      exact absurd rfl hnames
    · simpa only [if_neg hn, if_neg ho] using heq

/-- A node that is moved is seen at the destination, and nothing is left at the source. -/
theorem Prepared.look_move (h : Prepared destination false fs fs)
    (hsource : fs.find source.parts = some node)
    (habove : ¬source.isAncestorOf destination = true) :
    ((fs.link destination node).unlink source).look =
      ((FileMap.clear fs.look source.parts).graft destination.parts
        (FileMap.below fs.look source.parts)) := by
  have hroot : source.parts ≠ [] := fun hnil =>
    (h.apart hsource habove).2 (hnil ▸ List.nil_prefix)
  funext names
  rw [look_eq, h.stat_move hsource habove, FileMap.graft, FileMap.below, FileMap.clear]
  split
  · exact (look_eq _ _).symm
  · by_cases hunder : source.parts <+: names
    · have hnames : names ≠ [] := fun hnil => hroot (List.prefix_nil.1 (hnil ▸ hunder))
      rw [if_pos hunder, if_pos ⟨hunder, hnames⟩]
      rfl
    · rw [if_neg hunder, if_neg fun hboth => hunder hboth.1]
      exact (look_eq _ _).symm

end Move

/-! ## Removing -/

/-- A path that resolves is cleared with everything below it, but for the root itself. -/
theorem stat_remove {target : Path} (h : (fs.get target).isSome) (names : List Text) :
    (fs.remove target).stat names =
      if target.parts <+: names ∧ names ≠ [] then none else fs.stat names := by
  obtain ⟨node, hget⟩ := Option.isSome_iff_exists.1 h
  rw [remove]
  by_cases hroot : target.parts = []
  · rw [if_pos (Path.isRoot_iff.2 hroot), hroot]
    cases names with
    | nil => rfl
    | cons name names => rw [if_pos ⟨List.nil_prefix, List.cons_ne_nil _ _⟩]; rfl
  · rw [if_neg fun h => hroot (Path.isRoot_iff.1 h), hget]
    have hparent := isDirectory_parent hroot (find_of_get hget)
    refine (stat_unlink hroot hparent names).trans ?_
    congr 1
    refine propext ⟨fun hunder => ⟨hunder, fun hnil => ?_⟩, And.left⟩
    exact hroot (List.prefix_nil.1 (hnil ▸ hunder))

/-- A removal changes nothing if its path does not resolve. -/
theorem remove_of_not_resolves {target : Path} (h : ¬(fs.get target).isSome) :
    fs.remove target = fs := by
  have hget : fs.get target = none := by simpa using h
  have hroot : ¬target.isRoot = true := fun hroot =>
    ne_nil_of_get_eq_none hget (Path.isRoot_iff.1 hroot)
  rw [remove, if_neg hroot, hget]

/-- A removal keeps the numbers apart. -/
theorem Numbered.remove (h : fs.Numbered) (target : Path) : (fs.remove target).Numbered := by
  by_cases hget : (fs.get target).isSome
  · refine h.of_origin id ?_ (fun {names found} hfound => ?_) fun _ _ heq => heq
    · rw [FileSystem.remove]
      split
      · exact Nat.le_refl _
      · split <;> exact Nat.le_refl _
    · rw [stat_remove hget] at hfound
      split at hfound
      · cases hfound
      · exact hfound
  · rwa [remove_of_not_resolves hget]

/-- A removal clears its path if the path resolves, and changes nothing otherwise. -/
theorem look_remove (fs : FileSystem) (target : Path) :
    (fs.remove target).look =
      if FileMap.Resolves fs.look target then FileMap.clear fs.look target.parts else fs.look := by
  by_cases hget : (fs.get target).isSome
  · rw [if_pos (isSome_get_iff_resolves.1 hget)]
    have hdisk : (fs.remove target).disk = fs.disk := by
      rw [FileSystem.remove]
      split
      · rfl
      · split <;> rfl
    funext names
    rw [look_eq, stat_remove hget, hdisk, FileMap.clear]
    split
    · rfl
    · exact (look_eq _ _).symm
  · rw [if_neg fun h => hget (isSome_get_iff_resolves.2 h), remove_of_not_resolves hget]

/-! ## Opening -/

/-- The file system after a text has been written for a number. -/
def write (fs : FileSystem) (inode : Inode) (text : Text) : FileSystem :=
  { fs with disk := fs.disk.write inode text }

/-- Writing keeps the numbers apart. -/
theorem Numbered.write (h : fs.Numbered) (inode : Inode) (text : Text) :
    (fs.write inode text).Numbered where
  lt_next hstat := by
    rw [FileSystem.write, Disk.next_write]
    exact h.lt_next hstat
  eq_of_inode := h.eq_of_inode

/-- A text that is written for the number of a file is seen where this file is and nowhere else. -/
theorem look_write (h : fs.Numbered) {names : List Text} {inode : Inode}
    (hstat : fs.stat names = some (.file, inode)) (text : Text) (others : List Text) :
    (fs.write inode text).look others = if others = names then .file text else fs.look others := by
  have hread := Disk.read_write (h.lt_next hstat) text
  have hsame : (fs.write inode text).stat others = fs.stat others := rfl
  rw [look_eq, hsame]
  by_cases hothers : others = names
  · rw [if_pos hothers, hothers, hstat, View.ofStat, write, hread, if_pos rfl]
  · rw [if_neg hothers, look_eq]
    refine View.ofStat_congr fun kind number hnumber => ?_
    have hne : number ≠ inode := by
      rintro rfl
      exact hothers (h.eq_of_inode hnumber hstat)
    exact (hread number).trans (if_neg hne)

/-- A file is opened in a mode: it is emptied if it is opened to be written. -/
theorem openNode_file (mode : OpenMode) (inode : Inode) (fs : FileSystem) :
    ∃ stream, openNode mode (.file inode) fs =
      .ok stream (if mode = .write then fs.write inode [] else fs) := by
  cases mode <;> exact ⟨_, rfl⟩

/-- A file that is there is opened as it should be. -/
theorem look_openNode_file (h : fs.Numbered) {names : List Text} {inode : Inode}
    (hstat : fs.stat names = some (.file, inode)) (mode : OpenMode) :
    (if mode = .write then fs.write inode [] else fs).Numbered ∧
      (if mode = .write then fs.write inode [] else fs).look =
        FileMap.touch fs.look names mode := by
  have hlook : fs.look names = .file (fs.disk.read inode) := by rw [look_eq, hstat]; rfl
  by_cases hmode : mode = .write
  · rw [if_pos hmode]
    refine ⟨h.write inode [], funext fun others => ?_⟩
    rw [look_write h hstat, FileMap.touch]
    by_cases hothers : others = names
    · rw [if_pos hothers, if_pos hothers, hothers, hlook]
      exact (if_pos hmode).symm
    · rw [if_neg hothers, if_neg hothers]
  · rw [if_neg hmode]
    refine ⟨h, funext fun others => ?_⟩
    rw [FileMap.touch]
    by_cases hothers : others = names
    · rw [if_pos hothers, hothers, hlook]
      exact (if_neg hmode).symm
    · rw [if_neg hothers]

/-- A file that is missing is made. -/
theorem Prepared.look_attach_file {target : Path} (h : Prepared target false fs fs)
    (hfs : fs.Numbered) (mode : OpenMode) :
    (fs.attach target (.file [])).look = FileMap.touch fs.look target.parts mode := by
  funext names
  rw [look_attach_leaf h.parts_ne_nil h.isDirectory h.absent hfs fun _ _ => rfl, FileMap.touch]
  by_cases hnames : names = target.parts
  · rw [if_pos hnames, if_pos hnames, hnames, find_eq_none_iff_look.1 h.absent]
    rfl
  · rw [if_neg hnames, if_neg hnames]

end FileSystem

end MemShell
