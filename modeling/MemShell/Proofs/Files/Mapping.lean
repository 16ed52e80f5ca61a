import MemShell.Proofs.Files.Adding
import MemShell.Proofs.Path.Segments

/-!
# Where several nodes go

The targets that are found for some sources and a destination are all in a directory that is there,
so a move to one of them is never stopped by what lies above it. What can stop it lies at the source
or at the target itself: one is above the other, the source is missing, the target is taken, or it
is written with a slash and the source is a file. Main statement: every source is given a target in
its turn, and the move between them fails with the error of one of these obstacles or, if there is
none, succeeds.
-/

namespace MemShell

namespace FileSystem

variable {fs : FileSystem} {source target destination : Path}

/-! ## Moving to a place in a directory -/

/-- What is in the way of a move to a place in a directory, with the error that names it. -/
inductive MoveObstacle (fs : FileSystem) (source target : Path) : FileError → Prop
  /-- The source lies above the target. -/
  | above (h : source.isAncestorOf target = true) :
    MoveObstacle fs source target (.intoItself .move source)
  /-- The source leads nowhere. -/
  | missing (h : fs.get source = none) : MoveObstacle fs source target (.notFound source)
  /-- Something lies at the names of the target. -/
  | taken (h : (fs.find target.parts).isSome) :
    MoveObstacle fs source target (.alreadyExists target)
  /-- The target is written with a slash at its end, and the source is no directory. -/
  | slash {node : Node} (hroot : target.parts ≠ []) (hsource : fs.get source = some node)
    (h : ¬SlashFits target node.kind) : MoveObstacle fs source target (.notADirectory target)

/-- No obstacle is named by the parent of the target, if that is a directory. -/
theorem MoveObstacle.ne_of_parent {error : FileError} (h : MoveObstacle fs source target error)
    (hdir : fs.IsDirectory target.parent.parts) :
    error ≠ .notFound target.parent ∧ error ≠ .notADirectory target.parent := by
  constructor
  · intro herror
    cases h with
    | missing hmissing =>
      obtain ⟨inode, entries, hfind⟩ := hdir
      rw [FileError.notFound.inj herror, get_eq_directory_iff.2 hfind] at hmissing
      cases hmissing
    | above | taken | slash => cases herror
  · intro herror
    cases h with
    | slash hroot =>
      -- A target that is not the root is longer than its parent.
      have hparts := congrArg Path.parts (FileError.notADirectory.inj herror)
      have hlength := congrArg List.length hparts
      rw [Path.parts_parent, List.length_dropLast] at hlength
      have hpos := List.length_pos_iff.2 hroot
      omega
    | above | missing | taken => cases herror

/-- No node is moved below itself. -/
theorem move_above (h : source.isAncestorOf target = true) :
    move source target fs = .error (.intoItself .move source) fs := by
  rw [move, if_pos h]
  rfl

section Apart

variable (habove : ¬source.isAncestorOf target = true)

include habove

/-- No node is moved from where there is none. -/
theorem move_missing (h : fs.get source = none) :
    move source target fs = .error (.notFound source) fs := by
  rw [move, if_neg habove]
  change (EStateM.get >>= _ : FileOp Unit) fs = _
  rw [FileOp.get_bind, h]
  rfl

/-- A node that is there is moved once its target has been prepared. -/
theorem move_found {node : Node} (h : fs.get source = some node) :
    move source target fs =
      (prepare target node.kind false >>= fun _ => do
        modify fun fs => fs.link target node
        modify fun fs => fs.unlink source) fs := by
  rw [move, if_neg habove]
  change (EStateM.get >>= _ : FileOp Unit) fs = _
  rw [FileOp.get_bind, h]

end Apart

/-- In a directory a move succeeds and nothing is in its way, or it changes nothing and fails with
the error of what is in its way. -/
theorem move_or_obstacle (source : Path) (hdir : fs.IsDirectory target.parent.parts) :
    ((∃ after, move source target fs = .ok () after) ∧
        ∀ error, ¬MoveObstacle fs source target error) ∨
      ∃ error, move source target fs = .error error fs ∧ MoveObstacle fs source target error := by
  -- The cases come in the order in which a move looks for what is in its way.
  by_cases habove : source.isAncestorOf target = true
  · exact .inr ⟨_, move_above habove, .above habove⟩
  cases hget : fs.get source with
  | none => exact .inr ⟨_, move_missing habove hget, .missing hget⟩
  | some node =>
    rw [move_found habove hget]
    by_cases hroot : target.parts = []
    · have htaken : (fs.find target.parts).isSome := by
        rw [hroot]
        exact fs.isDirectory_root.isSome_find
      exact .inr ⟨_, bind_error (prepare_root hroot), .taken htaken⟩
    by_cases hslash : SlashFits target node.kind
    · have hprepare := prepare_of_isDirectory hroot hslash hdir
      by_cases htaken : (fs.find target.parts).isSome
      · rw [if_pos htaken] at hprepare
        exact .inr ⟨_, bind_error hprepare, .taken htaken⟩
      · rw [if_neg htaken] at hprepare
        refine .inl ⟨⟨_, bind_ok hprepare⟩, ?_⟩
        rintro error (h | h | h | ⟨-, hsource, h⟩)
        · exact habove h
        · cases hget.symm.trans h
        · exact htaken h
        · cases hget.symm.trans hsource
          exact h hslash
    · exact .inr ⟨_, bind_error (prepare_slash hroot hslash), .slash hroot hget hslash⟩

/-! ## Targets -/

/-- Targets are found in a directory for all sources, or there is one source and it takes the place
of a destination that is not there, in a directory. -/
theorem moveMappings_cases {sources : List Path} {pairs : List (Path × Path)}
    (h : fs.moveMappings sources destination = .ok pairs) :
    (fs.IsDirectory destination.parts ∧
        pairs = sources.map fun source => (source, destination.child source.fileName)) ∨
      fs.IsDirectory destination.parent.parts ∧
        ∃ source, sources = [source] ∧ pairs = [(source, destination)] := by
  have hdirectory {path : Path} {inode : Inode} {entries : Entries}
      (hget : fs.get path = some (.directory inode entries)) : fs.IsDirectory path.parts :=
    ⟨inode, entries, get_eq_directory_iff.1 hget⟩
  unfold moveMappings at h
  split at h
  · next source =>
    split at h
    · next hget => exact .inl ⟨hdirectory hget, (Except.ok.inj h).symm⟩
    · cases h
    · split at h
      · cases h
      · next hget => exact .inr ⟨hdirectory hget, source, rfl, (Except.ok.inj h).symm⟩
      · cases h
  · split at h
    · cases h
    · next hget => exact .inl ⟨hdirectory hget, (Except.ok.inj h).symm⟩
    · cases h

/-- The place of a node below a directory is in a directory, also for the root, whose name is empty
and leads to the directory itself. -/
theorem IsDirectory.parent_child (h : fs.IsDirectory destination.parts) (source : Path) :
    fs.IsDirectory (destination.child source.fileName).parent.parts := by
  rw [Path.parts_parent]
  by_cases hroot : source.parts = []
  · have hname : source.fileName = [] := by rw [Path.fileName, hroot]; rfl
    rw [hname, Path.parts_child_of_not_mem List.not_mem_nil]
    exact h.dropLast
  · have hname : source.fileName ∈ source.parts := by
      rw [Path.fileName, List.getLastD_eq_getLast?, List.getLast?_eq_some_getLast hroot]
      exact List.getLast_mem hroot
    rw [Path.parts_child_of_valid (source.valid _ hname), List.dropLast_concat]
    exact h

/-- If targets are found for several sources, every source is given one in its turn, and the parent
of each target is a directory. A move from a source to its target changes nothing and fails if the
source lies above the target or leads nowhere, if something lies at the names of the target, or if
the target is written with a slash and the source is no directory. The error says which it is, and
never speaks of the parent of the target. Otherwise the move succeeds. -/
theorem moveMappings_executable {sources : List Path} {pairs : List (Path × Path)}
    (h : fs.moveMappings sources destination = .ok pairs) :
    pairs.map Prod.fst = sources ∧
      ∀ pair ∈ pairs,
        (∃ inode entries, fs.get pair.2.parent = some (.directory inode entries)) ∧
          ((∃ after, move pair.1 pair.2 fs = .ok () after) ↔
            ∀ error, ¬MoveObstacle fs pair.1 pair.2 error) ∧
          ∀ error after, move pair.1 pair.2 fs = .error error after →
            after = fs ∧ MoveObstacle fs pair.1 pair.2 error ∧
              error ≠ .notFound pair.2.parent ∧ error ≠ .notADirectory pair.2.parent := by
  have hpairs : pairs.map Prod.fst = sources ∧
      ∀ pair ∈ pairs, fs.IsDirectory pair.2.parent.parts := by
    obtain ⟨hdir, rfl⟩ | ⟨hdir, source, rfl, rfl⟩ := moveMappings_cases h
    · refine ⟨by rw [List.map_map]; exact List.map_id _, ?_⟩
      exact List.forall_mem_map.2 fun source _ => hdir.parent_child source
    · exact ⟨rfl, List.forall_mem_singleton.2 hdir⟩
  obtain ⟨hsources, htargets⟩ := hpairs
  refine ⟨hsources, ?_⟩
  rintro ⟨source, target⟩ hmem
  have hdir : fs.IsDirectory target.parent.parts := htargets _ hmem
  have hparent : ∃ inode entries, fs.get target.parent = some (.directory inode entries) := by
    obtain ⟨inode, entries, hfind⟩ := hdir
    exact ⟨inode, entries, get_eq_directory_iff.2 hfind⟩
  refine ⟨hparent, ?_⟩
  obtain ⟨⟨after, hmove⟩, hclear⟩ | ⟨error, hmove, hobstacle⟩ := move_or_obstacle source hdir
  · refine ⟨⟨fun _ => hclear, fun _ => ⟨after, hmove⟩⟩, fun error other hfail => ?_⟩
    cases hmove.symm.trans hfail
  · refine ⟨⟨fun ⟨after, hdone⟩ => ?_, fun hclear => absurd hobstacle (hclear error)⟩,
      fun other after hfail => ?_⟩
    · cases hmove.symm.trans hdone
    · cases hmove.symm.trans hfail
      exact ⟨rfl, hobstacle, hobstacle.ne_of_parent hdir⟩

/-- A desk with a note in it, and a tray in which something has the same name. -/
def office : FileSystem :=
  .ofEntries [("desk", .directory [("note", .file "ink")]), ("tray", .directory [("note", .null)])]

theorem moveMappings_executable_office :
    office.moveMappings [Path.ofText "/desk/note", .root, Path.ofText "/desk"]
          (Path.ofText "/tray") =
        .ok [(Path.ofText "/desk/note", Path.ofText "/tray/note"),
          (.root, Path.ofText "/tray/"), (Path.ofText "/desk", Path.ofText "/tray/desk")] ∧
      MoveObstacle office (Path.ofText "/desk/note") (Path.ofText "/tray/note")
        (.alreadyExists (Path.ofText "/tray/note")) ∧
      MoveObstacle office .root (Path.ofText "/tray/") (.intoItself .move .root) ∧
      (∀ error, ¬MoveObstacle office (Path.ofText "/desk") (Path.ofText "/tray/desk") error) ∧
      office.moveMappings [Path.ofText "/desk/note"] (Path.ofText "/tray/note/") =
        .ok [(Path.ofText "/desk/note", Path.ofText "/tray/note/")] ∧
      MoveObstacle office (Path.ofText "/desk/note") (Path.ofText "/tray/note/")
        (.notADirectory (Path.ofText "/tray/note/")) := by
  obtain ⟨-, hmany⟩ := @moveMappings_executable office (Path.ofText "/tray")
    [Path.ofText "/desk/note", .root, Path.ofText "/desk"] _ rfl
  simp only [List.map_cons, List.forall_mem_cons] at hmany
  obtain ⟨hnote, hroot, hdesk, -⟩ := hmany
  obtain ⟨-, hone⟩ := @moveMappings_executable office (Path.ofText "/tray/note/")
    [Path.ofText "/desk/note"] _ rfl
  obtain ⟨-, -, hslash⟩ := List.forall_mem_singleton.1 hone
  exact ⟨rfl, (hnote.2.2 _ _ rfl).2.1, (hroot.2.2 _ _ rfl).2.1, hdesk.2.1.1 ⟨_, rfl⟩, rfl,
    (hslash _ _ rfl).2.1⟩

end FileSystem

end MemShell
