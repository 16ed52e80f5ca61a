import MemShell.Proofs.Files.Effects
import MemShell.Proofs.Files.Restoring

/-!
# Saving and loading

A saved tree is restored, and a file system that is written as a text is loaded from it, however the
text is laid out: on one line or indented, with sorted names or not, with or without characters
outside ASCII. Main statement: nothing is lost, at every path there is a node of the same variant
with the same text.
-/

namespace MemShell

namespace Json

/-- How the levels of a text are indented. -/
inductive Indentation
  /-- By a number of spaces, none if it is negative. -/
  | spaces (count : Int)
  /-- By a text of spaces and tabs. -/
  | blanks (text : Text) (h : ∀ c ∈ text, c = ' ' ∨ c = '\t')

/-- The text that each level is indented by. -/
def Indentation.step : Indentation → Text
  | spaces count => List.replicate count.toNat ' '
  | blanks text _ => text

/-- Levels are indented by blanks. -/
theorem Indentation.isSpace_of_mem_step (indent : Indentation) :
    ∀ c ∈ indent.step, isSpace c = true := by
  cases indent with
  | spaces count =>
    intro c hc
    rw [(List.mem_replicate.1 hc).2]
    rfl
  | blanks text h =>
    intro c hc
    rcases h c hc with rfl | rfl <;> rfl

/-- The style of a choice of options: without an indentation there is one line with a space behind
every mark. -/
def Style.ofOptions (indent : Option Indentation) (sortKeys asciiOnly : Bool) : Style where
  indent := indent.map Indentation.step
  sortKeys := sortKeys
  asciiOnly := asciiOnly
  itemSeparator := if indent.isSome then "," else ", "
  keySeparator := ": "

/-- Every choice of options is legible. -/
theorem Style.legible_ofOptions (indent : Option Indentation) (sortKeys asciiOnly : Bool) :
    (ofOptions indent sortKeys asciiOnly).Legible where
  item := by
    cases indent with
    | none => exact ⟨[' '], rfl, List.forall_mem_singleton.2 rfl⟩
    | some indent => exact ⟨[], rfl, fun _ h => absurd h List.not_mem_nil⟩
  key := ⟨[' '], rfl, List.forall_mem_singleton.2 rfl⟩
  step step hstep := by
    obtain ⟨indent, -, rfl⟩ := Option.map_eq_some_iff.1 hstep
    exact indent.isSpace_of_mem_step

end Json

namespace FileSystem

variable {fs : FileSystem}

/-- The variant and the text of the node at a path. -/
def seen (fs : FileSystem) (path : Path) : Option (Kind × Text) :=
  (fs.get path).map fun node => (node.kind, node.text fs.disk)

/-- The variant and the text of a view. -/
def View.described : View → Option (Kind × Text)
  | .absent => none
  | .directory => some (.directory, [])
  | .file text => some (.file, text)
  | .null => some (.null, [])

/-- What is seen at a path is what is seen at its names; a path with a slash at its end is for
directories only. -/
theorem seen_eq (fs : FileSystem) (path : Path) :
    fs.seen path = (fs.look path.parts).described.filter fun found =>
      !path.isDirectory || found.1 == .directory := by
  rw [seen, get, look]
  cases fs.find path.parts with
  | none => rfl
  | some node => cases node <;> cases path.isDirectory <;> rfl

/-- A file system made of trees looks like the trees. -/
theorem look_ofEntries (entries : List (Text × Tree)) :
    (ofEntries entries).look = (Tree.directory entries).look := by
  have hstored := Tree.stored_install (.directory entries) Disk.empty
  funext names
  rw [look_eq]
  exact hstored.view_eq names

/-- The contents of the root look like the file system. -/
theorem look_root (fs : FileSystem) : (fs.root.contents fs.disk).look = fs.look :=
  look_contents (show fs.find [] = some fs.root from rfl)

/-- A well-formed file system is loaded from its text, and looks the same afterwards. -/
theorem WellFormed.load_save (h : fs.WellFormed) {style : Json.Style} (hstyle : style.Legible) :
    ∃ loaded, load (save style fs) = .ok loaded ∧ loaded.look = fs.look := by
  have htree := Node.WellFormed.contents h fs.disk
  have hread : Tree.ofJson (if style.sortKeys then (fs.root.contents fs.disk).toJson.sorted
      else (fs.root.contents fs.disk).toJson) = .ok (fs.root.contents fs.disk).sorted := by
    split
    · exact htree.ofJson_toJson.2
    · exact htree.ofJson_toJson.1
  obtain ⟨entries, hentries⟩ :
      ∃ entries, (fs.root.contents fs.disk).sorted = .directory entries := by
    rw [root, Node.contents, Tree.sorted_directory]
    exact ⟨_, rfl⟩
  refine ⟨ofEntries entries, ?_, ?_⟩
  · have hparse := Json.parse?_eq_some_iff.1 (htree.textual.parse?_write hstyle)
    rw [load, readSaved, save, Node.WellFormed.toJson_eq h, hparse]
    dsimp only
    rw [hread, hentries]
    rfl
  · rw [look_ofEntries, ← hentries, htree.look_sorted, look_root]

/-- Nothing is lost: a saved tree is restored with the same variants and texts at all names, and
a saved file system is loaded with the same variants and texts at all paths, whatever the options.
-/
theorem saving_restores :
    (∀ (disk : Disk) (node : Node), node.WellFormed →
      ∃ tree, Tree.ofJson (node.toJson disk) = .ok tree ∧ tree.WellFormed ∧
        tree.look = (node.contents disk).look) ∧
    ∀ (fs : FileSystem), fs.WellFormed → ∀ indent sortKeys asciiOnly,
      ∃ loaded, load (save (.ofOptions indent sortKeys asciiOnly) fs) = .ok loaded ∧
        ∀ path, loaded.seen path = fs.seen path := by
  refine ⟨fun disk node hnode => ?_, fun fs hfs indent sortKeys asciiOnly => ?_⟩
  · have htree := Node.WellFormed.contents hnode disk
    rw [hnode.toJson_eq]
    exact ⟨_, htree.ofJson_toJson.1, htree.sorted, htree.look_sorted⟩
  · obtain ⟨loaded, hload, hlook⟩ :=
      hfs.load_save (Json.Style.legible_ofOptions indent sortKeys asciiOnly)
    exact ⟨loaded, hload, fun path => by rw [seen_eq, seen_eq, hlook]⟩

/-- A text that needs every kind of escape. -/
def scribble : Text := "\"\\😀\t\x00\x7f\n\u00e9"

/-- The text, and a directory with a null file, under names that need escapes as well. -/
def scrawl : List (Text × Tree) :=
  [("\"\\\n", .file scribble), ("é", .directory [("😀", .null)])]

/-- Every name in it is a proper one. -/
theorem wellFormed_scrawl : (Tree.directory scrawl).WellFormed := by
  have hinner : (Tree.directory [("😀", .null)]).WellFormed :=
    .directory (by decide) (by decide) (List.forall_mem_singleton.2 .null)
  exact .directory (by decide) (by decide)
    (List.forall_mem_cons.2 ⟨Tree.WellFormed.file _, List.forall_mem_singleton.2 hinner⟩)

theorem saving_restores_scrawl :
    (∃ tree, Tree.ofJson ((ofEntries scrawl).root.toJson (ofEntries scrawl).disk) = .ok tree ∧
      tree.look ["é", "😀"] = .null) ∧
    ∃ loaded, load (save (.ofOptions (some (.spaces 2)) true true) (ofEntries scrawl)) =
        .ok loaded ∧
      loaded.seen (Path.ofText "/\"\\\n") = some (Kind.file, scribble) ∧
      loaded.seen (Path.ofText "/é/😀") = some (Kind.null, []) := by
  have hwell : (ofEntries scrawl).WellFormed := wellFormed_ofEntries wellFormed_scrawl
  obtain ⟨tree, htree, -, hlook⟩ := saving_restores.1 (ofEntries scrawl).disk _ hwell
  obtain ⟨loaded, hload, hseen⟩ := saving_restores.2 _ hwell (some (.spaces 2)) true true
  refine ⟨⟨tree, htree, ?_⟩, loaded, hload, ?_⟩
  · rw [hlook]
    decide +kernel
  · rw [hseen, hseen]
    decide +kernel

end FileSystem

end MemShell
