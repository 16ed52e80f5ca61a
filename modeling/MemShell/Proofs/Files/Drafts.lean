import MemShell.Proofs.Files.Encoding

/-!
# Objects that are filed before they are filled

The saved form of a node can be made in two ways while the node is visited. An encoder of finished
objects files an object when its node is left, as a whole. An encoder of drafts files it when its
node is met: the object is empty then, and it is filled where it lies while the nodes below are
visited. Main statement: whatever is being encoded around it, a node becomes the saved form that
recursion gives, and at the end nothing is open and there is one finished object.
-/

namespace MemShell

/-- An object in the making. Objects have numbers, in the order in which they are begun. -/
inductive Draft
  /-- The object of a directory, with the numbers of the objects that have been filed in it. -/
  | directory (filed : List (Text × Nat))
  /-- The object of any other node, in which nothing can be filed. -/
  | leaf (json : Json)

/-- An object in another one: its name there, its number, and what it holds in the end. -/
structure Filing where
  /-- The name under which it is filed. -/
  name : Text
  /-- Its number. -/
  number : Nat
  /-- What it holds. -/
  json : Json

namespace Filing

/-- The name and the number. -/
def reference (filing : Filing) : Text × Nat := (filing.name, filing.number)

/-- The name and what is held. -/
def entry (filing : Filing) : Text × Json := (filing.name, filing.json)

end Filing

namespace Draft

/-- The object of a node that has just been met. -/
def ofNode (disk : Disk) (node : Node) : Draft :=
  match node with
  | .directory .. => directory []
  | .file inode => leaf (Node.header disk (.file inode))
  | .null inode => leaf (Node.header disk (.null inode))

/-- An object with another one filed under a name. -/
def file (name : Text) (number : Nat) : Draft → Draft
  | directory filed => directory (Assoc.put name number filed)
  | leaf json => leaf json

/-- What the object of a number holds when the numbers in it are followed. -/
inductive Holds (drafts : List Draft) : Nat → Json → Prop
  /-- An object in which nothing is filed holds what it was made with. -/
  | leaf {number : Nat} {json : Json} (h : drafts[number]? = some (.leaf json)) :
    Holds drafts number json
  /-- The object of a directory holds what the objects in it hold, under their names. -/
  | directory {number : Nat} {filings : List Filing}
    (h : drafts[number]? = some (.directory (filings.map Filing.reference)))
    (inner : ∀ filing ∈ filings, Holds drafts filing.number filing.json) :
    Holds drafts number (Tree.directoryJson (filings.map Filing.entry))

/-- Objects that hold something stay at their numbers: what a list of objects holds from a number on
is held wherever the list begins with this number. -/
def HoldsFrom (base : Nat) (drafts : List Draft) (number : Nat) (json : Json) : Prop :=
  ∀ front back, front.length = base → Holds (front ++ drafts ++ back) number json

/-- What is held by objects is held when others are begun after them. -/
theorem HoldsFrom.append {base number : Nat} {drafts : List Draft} {json : Json}
    (h : HoldsFrom base drafts number json) (later : List Draft) :
    HoldsFrom base (drafts ++ later) number json := by
  intro front back hfront
  have hholds := h front (later ++ back) hfront
  rwa [← List.append_assoc, List.append_assoc front] at hholds

/-- What is held by objects is held when others are begun before them. -/
theorem HoldsFrom.prepend {base number : Nat} {drafts : List Draft} {json : Json} {first : Nat}
    (h : HoldsFrom base drafts number json) (earlier : List Draft)
    (hbase : base = first + earlier.length) :
    HoldsFrom first (earlier ++ drafts) number json := by
  intro front back hfront
  have hlength : (front ++ earlier).length = base := by rw [List.length_append, hfront, hbase]
  have hholds := h (front ++ earlier) back hlength
  rwa [List.append_assoc front] at hholds

/-- An object in which nothing can be filed holds what it was made with. -/
theorem holdsFrom_leaf (base : Nat) (json : Json) : HoldsFrom base [.leaf json] base json := by
  rintro front back rfl
  refine .leaf ?_
  rw [List.append_assoc, List.getElem?_append_right (Nat.le_refl _), Nat.sub_self]
  rfl

/-- The object of a directory holds what the objects behind it hold that are filed in it. -/
theorem HoldsFrom.directory {base : Nat} {filings : List Filing} {drafts : List Draft}
    (h : ∀ filing ∈ filings, HoldsFrom (base + 1) drafts filing.number filing.json) :
    HoldsFrom base (.directory (filings.map Filing.reference) :: drafts) base
      (Tree.directoryJson (filings.map Filing.entry)) := by
  rintro front back rfl
  refine .directory ?_ fun filing hfiling => ?_
  · rw [List.append_assoc, List.getElem?_append_right (Nat.le_refl _), Nat.sub_self]
    rfl
  · have hholds := h filing hfiling (front ++ [.directory (filings.map Filing.reference)]) back
      (by rw [List.length_append]; rfl)
    rwa [List.append_assoc front] at hholds

/-- Filings with the same names and numbers hold the same if their numbers decide what they hold. -/
theorem map_entry_eq {filings others : List Filing}
    (hreferences : filings.map Filing.reference = others.map Filing.reference)
    (h : ∀ filing ∈ filings, ∀ other ∈ others, filing.number = other.number →
      filing.json = other.json) : filings.map Filing.entry = others.map Filing.entry := by
  induction filings generalizing others with
  | nil => rw [List.map_eq_nil_iff.1 hreferences.symm]
  | cons filing filings ih =>
    cases others with
    | nil => cases hreferences
    | cons other others =>
      obtain ⟨hfirst, hrest⟩ := List.cons.inj hreferences
      obtain ⟨hname, hnumber⟩ := Prod.mk.inj hfirst
      have hjson := h filing List.mem_cons_self other List.mem_cons_self hnumber
      rw [List.map_cons, List.map_cons, Filing.entry, Filing.entry, hname, hjson]
      refine congrArg _ (ih hrest fun filing hfiling other hother => ?_)
      exact h filing (List.mem_cons_of_mem _ hfiling) other (List.mem_cons_of_mem _ hother)

/-- An object holds one value only. -/
theorem Holds.unique {drafts : List Draft} {number : Nat} {json other : Json}
    (h : Holds drafts number json) (hother : Holds drafts number other) : json = other := by
  induction h generalizing other with
  | leaf h =>
    cases hother with
    | leaf hleaf =>
      rw [h] at hleaf
      cases hleaf
      rfl
    | directory hdirectory inner =>
      rw [h] at hdirectory
      cases hdirectory
  | directory h inner ih =>
    cases hother with
    | leaf hleaf =>
      rw [h] at hleaf
      cases hleaf
    | directory hdirectory others =>
      rw [h, Option.some.injEq, Draft.directory.injEq] at hdirectory
      refine congrArg Tree.directoryJson (map_entry_eq hdirectory ?_)
      intro filing hfiling second hsecond hnumber
      refine ih filing hfiling ?_
      rw [hnumber]
      exact others second hsecond

end Draft

/-- The encoder of drafts at work. -/
structure DraftEncoder where
  /-- All objects that have been begun. -/
  drafts : List Draft
  /-- The numbers of the objects of the nodes that are being visited, the innermost first. -/
  opened : List Nat
  /-- The numbers of the objects whose visit is over and that are in no other. -/
  finished : List Nat

namespace DraftEncoder

/-- The encoder at the start. -/
def start : DraftEncoder := ⟨[], [], []⟩

/-- The objects after the next number has been filed under a name in the object on top of the stack.
-/
def filed (encoder : DraftEncoder) (name : Text) : List Draft :=
  match encoder.opened with
  | [] => encoder.drafts
  | outer :: _ => encoder.drafts.modify outer (Draft.file name encoder.drafts.length)

/-- One call of the visit: the object of a node that is met is filed in the object around it under
the last name of the path, and opened; the object of a node that is left is closed. -/
def listen (disk : Disk) (encoder : DraftEncoder) (call : Call) : DraftEncoder :=
  match call.moment with
  | .before => encoder
  | .at =>
    { encoder with
      drafts := encoder.filed call.path.fileName ++ [.ofNode disk call.node]
      opened := encoder.drafts.length :: encoder.opened }
  | .after =>
    match encoder.opened with
    | [] => encoder
    | [number] => { encoder with opened := [], finished := encoder.finished ++ [number] }
    | _ :: outer :: rest => { encoder with opened := outer :: rest }

/-- The encoder after the object of a node has been filed under a name, with the objects in it, or
finished if there is none around it. -/
def took (encoder : DraftEncoder) (name : Text) (drafts : List Draft) : DraftEncoder where
  drafts := encoder.filed name ++ drafts
  opened := encoder.opened
  finished :=
    match encoder.opened with
    | [] => encoder.finished ++ [encoder.drafts.length]
    | _ => encoder.finished

/-- Filing an object begins none. -/
theorem length_filed (encoder : DraftEncoder) (name : Text) :
    (encoder.filed name).length = encoder.drafts.length := by
  rw [filed]
  split
  · rfl
  · exact List.length_modify _ _ _

/-- When a node is left its object is closed, and what has been filed in it stays. -/
theorem listen_after (disk : Disk) (encoder : DraftEncoder) (drafts : List Draft) (path : Path)
    (node : Node) :
    listen disk
        { encoder with
          drafts := encoder.filed path.fileName ++ drafts
          opened := encoder.drafts.length :: encoder.opened } ⟨.after, path, node⟩ =
      encoder.took path.fileName drafts := by
  obtain ⟨all, opened, finished⟩ := encoder
  cases opened <;> rfl

/-- The encoder while a directory is visited: its object is on top of the stack, and lies between
the objects that were begun before it and those below it. -/
def visiting (around : List Draft) (filed : List (Text × Nat)) (below : List Draft)
    (opened finished : List Nat) : DraftEncoder :=
  ⟨around ++ .directory filed :: below, around.length :: opened, finished⟩

section Visiting

variable (around below : List Draft) (filed : List (Text × Nat)) (opened finished : List Nat)

/-- A node below a directory gets the number after those of the objects that are there. -/
theorem length_drafts_visiting :
    (visiting around filed below opened finished).drafts.length =
      around.length + 1 + below.length := by
  rw [visiting, List.length_append, List.length_cons]
  omega

/-- The object of a node below a directory is filed in the object of the directory. -/
theorem took_visiting (name : Text) (drafts : List Draft) :
    (visiting around filed below opened finished).took name drafts =
      visiting around (Assoc.put name (around.length + 1 + below.length) filed) (below ++ drafts)
        opened finished := by
  have hmodify (number : Nat) :
      (around ++ .directory filed :: below).modify around.length (Draft.file name number) =
        around ++ .directory (Assoc.put name number filed) :: below := by
    induction around with
    | nil => rfl
    | cons draft around ih => exact congrArg _ ih
  rw [took, DraftEncoder.filed, length_drafts_visiting]
  dsimp only [visiting]
  rw [hmodify, List.append_assoc]
  rfl

end Visiting

end DraftEncoder

namespace Node

open DraftEncoder

/-- A visit of a node begins its object and those in it, and the first of them holds the saved form
of the node. -/
def DraftsItself (disk : Disk) (node : Node) : Prop :=
  ∀ path encoder, ∃ drafts,
    (node.visit path).foldl (listen disk) encoder = encoder.took path.fileName drafts ∧
      Draft.HoldsFrom encoder.drafts.length drafts encoder.drafts.length (node.contents disk).toJson

/-- While the entries of a directory are visited an object is filed for each of them, under its
name, that holds its saved form. -/
theorem foldl_visit_filings {disk : Disk} {met : Entries}
    (hmet : ∀ entry ∈ met, ValidName entry.1 ∧ DraftsItself disk entry.2) (path : Path)
    (around below : List Draft) (filed : List (Text × Nat)) (opened finished : List Nat) :
    ∃ (filings : List Filing) (drafts : List Draft),
      (met.flatMap fun entry => entry.2.visit (path.child entry.1)).foldl (listen disk)
          (visiting around filed below opened finished) =
        visiting around ((filings.map Filing.reference).foldl
          (fun entries pair => Assoc.put pair.1 pair.2 entries) filed) (below ++ drafts)
          opened finished ∧
      filings.map Filing.entry =
        (met.map fun entry => (entry.1, (entry.2.contents disk).toJson)) ∧
      ∀ filing ∈ filings,
        Draft.HoldsFrom (around.length + 1 + below.length) drafts filing.number filing.json := by
  induction met generalizing filed below with
  | nil => exact ⟨[], [], by rw [List.append_nil]; rfl, rfl, List.forall_mem_nil _⟩
  | cons entry met ih =>
    obtain ⟨⟨hname, hentry⟩, hrest⟩ := List.forall_mem_cons.1 hmet
    obtain ⟨first, hfirst, hholds⟩ := hentry (path.child entry.1)
      (visiting around filed below opened finished)
    rw [Path.fileName_child_of_valid hname, took_visiting] at hfirst
    rw [length_drafts_visiting] at hholds
    obtain ⟨filings, drafts, hrun, hentries, hfilings⟩ := ih hrest (below ++ first)
      (Assoc.put entry.1 (around.length + 1 + below.length) filed)
    refine ⟨⟨entry.1, around.length + 1 + below.length, (entry.2.contents disk).toJson⟩ :: filings,
      first ++ drafts, ?_, ?_, List.forall_mem_cons.2 ⟨?_, fun filing hfiling => ?_⟩⟩
    · rw [List.flatMap_cons, List.foldl_append, hfirst, hrun, List.append_assoc]
      rfl
    · rw [List.map_cons, List.map_cons, hentries]
      rfl
    · exact hholds.append drafts
    · refine (hfilings filing hfiling).prepend first ?_
      rw [List.length_append]
      omega

/-- A visit of a well-formed node begins its object and those in it. -/
theorem WellFormed.draftsItself {node : Node} (h : node.WellFormed) (disk : Disk) :
    DraftsItself disk node := by
  induction h with
  | @directory inode entries nodup valid inner ih =>
    intro path encoder
    have hmet : ∀ entry ∈ Json.sortByName entries,
        ValidName entry.1 ∧ DraftsItself disk entry.2 := fun entry hentry =>
      ⟨valid entry (Json.mem_sortByName.1 hentry), ih entry (Json.mem_sortByName.1 hentry)⟩
    have hopen : [⟨.before, path, .directory inode entries⟩,
        ⟨.at, path, .directory inode entries⟩].foldl (listen disk) encoder =
        visiting (encoder.filed path.fileName) [] [] encoder.opened encoder.finished := by
      rw [visiting, length_filed]
      rfl
    obtain ⟨filings, drafts, hrun, hentries, hfilings⟩ := foldl_visit_filings hmet path
      (encoder.filed path.fileName) [] [] encoder.opened encoder.finished
    have hkeys : (Assoc.keys (filings.map Filing.reference)).Nodup := by
      have hnames : Assoc.keys (filings.map Filing.reference) =
          Assoc.keys (filings.map Filing.entry) := by
        rw [Assoc.keys, Assoc.keys, List.map_map, List.map_map]
        rfl
      rw [hnames, hentries,
        Assoc.keys_map fun entry : Text × Node => (entry.2.contents disk).toJson]
      exact Json.nodup_keys_sortByName.2 nodup
    refine ⟨.directory (filings.map Filing.reference) :: drafts, ?_, ?_⟩
    · rw [visit_directory, List.foldl_append, List.foldl_append, hopen, hrun,
        Assoc.foldl_put hkeys, visiting, length_filed]
      exact listen_after disk encoder _ path (.directory inode entries)
    · rw [toJson_contents_directory, ← hentries]
      rw [length_filed] at hfilings
      exact .directory hfilings
  | file inode =>
    intro path encoder
    exact ⟨_, listen_after disk encoder _ path (.file inode), Draft.holdsFrom_leaf _ _⟩
  | null inode =>
    intro path encoder
    exact ⟨_, listen_after disk encoder _ path (.null inode), Draft.holdsFrom_leaf _ _⟩

/-- The encoder of drafts after a visit that meets a node at a path. -/
def draftsAt (disk : Disk) (path : Path) (node : Node) : DraftEncoder :=
  (node.visit path).foldl (DraftEncoder.listen disk) .start

/-- The saved form of a node is what recursion over its contents gives, whichever node the visit
starts from and at whichever path. Each encoder files the node under the last name of the path in
the object that is open, and leaves the objects around it as they are. At the end of the visit
nothing is open and one object is finished, which holds the saved form. -/
theorem visit_encodes {node : Node} (h : node.WellFormed) (disk : Disk) :
    node.FilesItself disk ∧ node.DraftsItself disk ∧
      (∀ path, node.encoderAt disk path = ⟨[], [(node.contents disk).toJson]⟩ ∧
        ∃ drafts number, node.draftsAt disk path = ⟨drafts, [], [number]⟩ ∧
          ∀ json, Draft.Holds drafts number json ↔ json = (node.contents disk).toJson) ∧
      node.toJson disk = (node.contents disk).toJson := by
  refine ⟨h.filesItself disk, h.draftsItself disk, fun path => ⟨?_, ?_⟩, h.toJson_eq disk⟩
  · exact h.filesItself disk path .start
  · obtain ⟨drafts, hrun, hholds⟩ := h.draftsItself disk path .start
    have hdrafts := hholds [] [] rfl
    rw [List.nil_append, List.append_nil] at hdrafts
    refine ⟨drafts, 0, hrun, fun json => ⟨fun hjson => hjson.unique hdrafts, ?_⟩⟩
    rintro rfl
    exact hdrafts

/-- A directory with a null file and another directory, which come in the other order when they are
saved. -/
def cupboard : Tree := .directory [("sink", .null), ("...", .directory [(" ", .file "first")])]

/-- The saved form of the cupboard. -/
def cupboardJson : Json :=
  Tree.directoryJson
    [("...", Tree.directoryJson [(" ", .object [(tagField, .string Kind.file.name),
      (textField, .string "first")])]), ("sink", .object [(tagField, .string Kind.null.name)])]

theorem visit_encodes_cupboard :
    let (node, disk) := cupboard.install Disk.empty
    node.WellFormed ∧ node.encoderAt disk (Path.ofText "/old/") = ⟨[], [cupboardJson]⟩ ∧
      ∃ drafts number, node.draftsAt disk (Path.ofText "/old/") = ⟨drafts, [], [number]⟩ ∧
        Draft.Holds drafts number cupboardJson := by
  have hinner : (Tree.directory [(" ", .file "first")]).WellFormed :=
    .directory (by decide) (by decide) (List.forall_mem_singleton.2 (.file _))
  have htree : cupboard.WellFormed :=
    .directory (by decide) (by decide)
      (List.forall_mem_cons.2 ⟨.null, List.forall_mem_singleton.2 hinner⟩)
  have hwell := htree.install Disk.empty
  have hcontents :
      ((cupboard.install Disk.empty).1.contents (cupboard.install Disk.empty).2).toJson =
        cupboardJson := by
    have hsorted : Json.sortByName
        [("sink".toList, Tree.null), ("...".toList, .directory [(" ", .file "first")])] =
        [("...".toList, .directory [(" ", .file "first")]), ("sink".toList, .null)] := by
      refine (Json.sortByName_eq_of_perm (.swap _ _ _) (by decide)).trans ?_
      exact Json.sortByName_of_pairwise (List.pairwise_pair.2 (by decide))
    change cupboard.toJson = cupboardJson
    rw [cupboard, Tree.toJson_directory, hsorted, List.map_cons, Tree.toJson_directory,
      Json.sortByName_of_pairwise (List.pairwise_singleton _ _)]
    rfl
  obtain ⟨-, -, hends, -⟩ := visit_encodes hwell (cupboard.install Disk.empty).2
  rw [hcontents] at hends
  obtain ⟨hobjects, drafts, number, hdrafts, hholds⟩ := hends (Path.ofText "/old/")
  exact ⟨hwell, hobjects, drafts, number, hdrafts, (hholds _).2 rfl⟩

end Node

end MemShell
