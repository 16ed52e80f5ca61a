import MemShell.Files.Saved
import MemShell.Proofs.Files.Invariant
import MemShell.Proofs.Files.Walk

/-!
# The encoder

The encoder keeps the objects of the directories that are being visited on a stack. When the visit
of a node is over, the object on top of the stack is the saved form of the node, and it is filed in
the object below it, or finished if there is none. So what the encoder makes of a visit is the saved
form by recursion, whatever node the visit starts from.
-/

namespace MemShell

/-- The last name of a path with a name below it is that name. -/
theorem Path.fileName_child_of_valid {name : Text} (h : ValidName name) (path : Path) :
    (path.child name).fileName = name := by
  rw [fileName, parts_child_of_valid h, List.getLastD_eq_getLast?, List.getLast?_concat]
  rfl

namespace Tree

/-- The saved form of a directory with the saved forms of its entries. -/
def directoryJson (entries : List (Text × Json)) : Json :=
  .object [(tagField, .string Kind.directory.name), (entriesField, .object entries)]

/-- The saved forms of entries are made one by one. -/
theorem entriesToJson_eq (entries : List (Text × Tree)) :
    entriesToJson entries = entries.map fun entry => (entry.1, entry.2.toJson) := by
  induction entries with
  | nil => rw [entriesToJson]; rfl
  | cons entry entries ih => rw [entriesToJson, ih]; rfl

/-- The saved form of a directory holds the saved forms of its entries in the order of their names.
-/
theorem toJson_directory (entries : List (Text × Tree)) :
    (directory entries).toJson =
      directoryJson ((Json.sortByName entries).map fun entry => (entry.1, entry.2.toJson)) := by
  rw [toJson, entriesToJson_eq, Json.sortByName_map fun entry : Text × Tree => entry.2.toJson]
  rfl

end Tree

namespace Encoder

/-- The encoder after the saved form of a node has been filed under a name in the object on top of
the stack, or finished if there is none. -/
def file (encoder : Encoder) (name : Text) (json : Json) : Encoder :=
  match encoder.opened with
  | [] => { encoder with finished := encoder.finished ++ [json] }
  | outer :: rest => { encoder with opened := fileUnder outer name json :: rest }

/-- When a node is left, the object on top of the stack is filed. -/
theorem listen_after (disk : Disk) (encoder : Encoder) (entry : Json) (path : Path) (node : Node) :
    listen disk { encoder with opened := entry :: encoder.opened } ⟨.after, path, node⟩ =
      encoder.file path.fileName entry := by
  obtain ⟨opened, finished⟩ := encoder
  cases opened <;> rfl

end Encoder

namespace Node

open Encoder

/-- A visit of a node files its saved form under the last name of the path. -/
def FilesItself (disk : Disk) (node : Node) : Prop :=
  ∀ path encoder, (node.visit path).foldl (listen disk) encoder =
    encoder.file path.fileName (node.contents disk).toJson

/-- The entries of a directory are filed one after the other while it is on top of the stack. -/
theorem foldl_visit_entries {disk : Disk} {met : Entries}
    (hmet : ∀ entry ∈ met, ValidName entry.1 ∧ FilesItself disk entry.2) (path : Path)
    (encoder : Encoder) (filed : List (Text × Json)) :
    (met.flatMap fun entry => entry.2.visit (path.child entry.1)).foldl (listen disk)
        { encoder with opened := Tree.directoryJson filed :: encoder.opened } =
      { encoder with
        opened := Tree.directoryJson
          ((met.map fun entry => (entry.1, (entry.2.contents disk).toJson)).foldl
            (fun entries pair => Assoc.put pair.1 pair.2 entries) filed) :: encoder.opened } := by
  induction met generalizing filed with
  | nil => rfl
  | cons entry met ih =>
    obtain ⟨⟨hname, hentry⟩, hrest⟩ := List.forall_mem_cons.1 hmet
    rw [List.flatMap_cons, List.foldl_append, hentry, Path.fileName_child_of_valid hname]
    exact ih hrest _

/-- The saved form of what a directory holds has the saved forms of its entries in the order of their
names. -/
theorem toJson_contents_directory (disk : Disk) (inode : Inode) (entries : Entries) :
    ((Node.directory inode entries).contents disk).toJson =
      Tree.directoryJson ((Json.sortByName entries).map fun entry =>
        (entry.1, (entry.2.contents disk).toJson)) := by
  rw [Node.contents, contentsOfEntries_eq, Tree.toJson_directory,
    Json.sortByName_map fun entry : Text × Node => entry.2.contents disk, List.map_map]
  rfl

/-- What the encoder makes of a visit of a well-formed node is the saved form of the node. -/
theorem WellFormed.filesItself {node : Node} (h : node.WellFormed) (disk : Disk) :
    FilesItself disk node := by
  induction h with
  | @directory inode entries nodup valid inner ih =>
    intro path encoder
    have hmet : ∀ entry ∈ Json.sortByName entries, ValidName entry.1 ∧ FilesItself disk entry.2 :=
      fun entry hentry =>
        ⟨valid entry (Json.mem_sortByName.1 hentry), ih entry (Json.mem_sortByName.1 hentry)⟩
    have hopen : [⟨.before, path, .directory inode entries⟩,
        ⟨.at, path, .directory inode entries⟩].foldl (listen disk) encoder =
        { encoder with opened := Tree.directoryJson [] :: encoder.opened } := rfl
    have hkeys : (Assoc.keys ((Json.sortByName entries).map fun entry =>
        (entry.1, (entry.2.contents disk).toJson))).Nodup := by
      rw [Assoc.keys_map fun entry : Text × Node => (entry.2.contents disk).toJson]
      exact Json.nodup_keys_sortByName.2 nodup
    rw [visit_directory, List.foldl_append, List.foldl_append, hopen, foldl_visit_entries hmet,
      Assoc.foldl_put hkeys, toJson_contents_directory]
    exact listen_after disk encoder _ path _
  | file inode => exact fun path encoder => listen_after disk encoder _ path _
  | null inode => exact fun path encoder => listen_after disk encoder _ path _

/-- The encoder makes the saved form of a well-formed node by recursion. -/
theorem WellFormed.toJson_eq {node : Node} (h : node.WellFormed) (disk : Disk) :
    node.toJson disk = (node.contents disk).toJson := by
  rw [Node.toJson, encoderAt, h.filesItself disk]
  rfl

end Node

end MemShell
