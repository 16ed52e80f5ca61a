import MemShell.Proofs.Files.Effects

/-!
# Calls of the operations

The operations on a file system under one roof. A call that succeeds changes what is seen of the
file system as its effect says, whatever numbers the nodes have; a call that fails changes nothing.
So a whole run of calls is seen as the effects of those among them that succeed.
-/

namespace MemShell

/-- A call of an operation on a file system. -/
inductive FileCall
  /-- Adds a tree at a path, with the directories that are missing above it if asked to. -/
  | add (target : Path) (tree : Tree) (createParents : Bool)
  /-- Copies what is at a path. -/
  | copy (source destination : Path) (recursive : Bool)
  /-- Moves what is at a path. -/
  | move (source destination : Path)
  /-- Removes what is at a path. -/
  | remove (target : Path)
  /-- Opens the file at a path. -/
  | openAt (target : Path) (mode : OpenMode)
  /-- Asks where each of several sources would go. -/
  | moveMappings (sources : List Path) (destination : Path)

namespace FileCall

/-- The operation that is called; what it gives is dropped. -/
def run : FileCall → FileOp Unit
  | add target tree createParents => discard <| FileSystem.add target tree createParents
  | copy source destination recursive => FileSystem.copy source destination recursive
  | move source destination => FileSystem.move source destination
  | remove target => modify fun fs => fs.remove target
  | openAt target mode => discard <| FileSystem.openAt target mode
  | moveMappings sources destination => do
    let fs ← EStateM.get
    match fs.moveMappings sources destination with
    | .ok _ => return ()
    | .error error => throw error

/-- What a call that succeeds does to the map of what is seen. -/
def effect : FileCall → FileMap → FileMap
  | add target tree createParents, map =>
    (if createParents then map.raise target.parts else map).graft target.parts tree.look
  | copy source destination _, map => map.graft destination.parts (map.below source.parts)
  | move source destination, map =>
    (map.clear source.parts).graft destination.parts (map.below source.parts)
  | remove target, map => if map.Resolves target then map.clear target.parts else map
  | openAt target mode, map => map.touch target.parts mode
  | moveMappings .., map => map

/-- Neither path of a move lies at or below the other. So nothing is left at the source, and
everything that was there is at the destination. -/
def Apart : FileCall → Prop
  | move source destination =>
    ¬destination.parts <+: source.parts ∧ ¬source.parts <+: destination.parts
  | _ => True

end FileCall

namespace FileSystem

/-- A file system is what another has become by a change of what is seen. -/
def Becomes (fs : FileSystem) (change : FileMap → FileMap) (after : FileSystem) : Prop :=
  fs.Numbered → after.Numbered ∧ after.look = change fs.look

variable {fs : FileSystem}

/-- A tree is added as the call says, or nothing changes. -/
theorem add_becomes (target : Path) (tree : Tree) (createParents : Bool) (fs : FileSystem) :
    (add target tree createParents).AllOrNothing fs fs fun _ after =>
      fs.Becomes (FileCall.add target tree createParents).effect after := by
  refine (add_allOrNothing target tree createParents fs).mono fun node after hadd hfs => ?_
  obtain ⟨made, hprepared, -, rfl⟩ := hadd
  exact ⟨hprepared.numbered_attach hfs tree, hprepared.look_attach hfs tree⟩

/-- A node is copied as the call says, or nothing changes. -/
theorem copy_becomes (source destination : Path) (recursive : Bool) (fs : FileSystem) :
    (copy source destination recursive).AllOrNothing fs fs fun _ after =>
      fs.Becomes (FileCall.copy source destination recursive).effect after := by
  unfold copy
  dsimp only
  refine .throw_or fun _ => .get ?_
  cases hget : fs.get source with
  | none => exact .throw _ rfl
  | some node =>
    refine .throw_or fun _ => .discard ?_
    have hadd := add_becomes destination (node.contents fs.disk) false fs
    refine hadd.mono fun _ after hadd hfs => ?_
    obtain ⟨hnumbered, hlook⟩ := hadd hfs
    have hcontents := look_contents (find_of_get hget)
    exact ⟨hnumbered, hlook.trans (congrArg (FileMap.graft fs.look destination.parts) hcontents)⟩

/-- A node is moved as the call says, between paths that lie apart, or nothing changes. -/
theorem move_becomes (source destination : Path) (fs : FileSystem) :
    (move source destination).AllOrNothing fs fs fun _ after =>
      (FileCall.move source destination).Apart ∧
        fs.Becomes (FileCall.move source destination).effect after := by
  unfold move
  dsimp only
  refine .throw_or fun habove => .get ?_
  cases hget : fs.get source with
  | none => exact .throw _ rfl
  | some node =>
    refine (prepare_allOrNothing destination node.kind false fs).bind fun _ made hprepared => ?_
    obtain rfl := hprepared.eq_of_not rfl
    have hsource := find_of_get hget
    refine ⟨hprepared.apart hsource habove, fun hfs => ?_⟩
    exact ⟨hprepared.numbered_move hsource habove hfs, hprepared.look_move hsource habove⟩

/-- A node that is no directory is opened as the call says, and this does not fail. -/
theorem openNode_becomes {target : Path} {node : Node} {before : FileSystem}
    (hfind : fs.find target.parts = some node) (hkind : node.kind ≠ .directory) (mode : OpenMode) :
    (openNode mode node).AllOrNothing before fs fun _ after =>
      fs.Becomes (FileCall.openAt target mode).effect after := by
  cases node with
  | directory inode entries => exact absurd rfl hkind
  | file inode =>
    have hstat : fs.stat target.parts = some (.file, inode) := by
      rw [stat, Node.stat, ← find, hfind]
      rfl
    obtain ⟨stream, hopen⟩ := openNode_file mode inode fs
    rw [FileOp.AllOrNothing, hopen]
    exact fun hfs => look_openNode_file hfs hstat mode
  | null inode =>
    refine fun hfs => ⟨hfs, funext fun names => ?_⟩
    have hlook : fs.look target.parts = .null := by rw [look, hfind]
    rw [FileCall.effect, FileMap.touch]
    split
    · next hnames => rw [hnames, hlook]
    · rfl

/-- A file is opened as the call says, or nothing changes. -/
theorem openAt_becomes (target : Path) (mode : OpenMode) (fs : FileSystem) :
    (openAt target mode).AllOrNothing fs fs fun _ after =>
      fs.Becomes (FileCall.openAt target mode).effect after := by
  refine .get ?_
  cases hget : fs.get target with
  | none =>
    dsimp only
    refine .throw_or fun _ => ?_
    refine (add_allOrNothing target (.file []) false fs).bind fun node after hadd => ?_
    obtain ⟨made, hprepared, rfl, rfl⟩ := hadd
    obtain rfl := hprepared.eq_of_not rfl
    have hfind := find_link { made with disk := (Tree.install (.file []) made.disk).2 }
      hprepared.parts_ne_nil hprepared.isDirectory (Tree.install (.file []) made.disk).1
    refine (openNode_becomes hfind nofun mode).mono fun _ after hopen hfs => ?_
    obtain ⟨hnumbered, hlook⟩ := hopen (hprepared.numbered_attach hfs _)
    refine ⟨hnumbered, hlook.trans ?_⟩
    -- The new file looks as if it had been opened already.
    have hnew := hprepared.look_attach_file hfs mode
    rw [attach] at hnew
    rw [FileCall.effect, hnew]
    exact FileMap.touch_touch made.look target.parts mode
  | some node =>
    cases node with
    | directory inode entries => exact .throw _ rfl
    | file inode | null inode => exact openNode_becomes (find_of_get hget) nofun mode

end FileSystem

namespace FileCall

variable {fs after : FileSystem}

/-- A call does what its effect says, or it fails and changes nothing. -/
theorem run_allOrNothing (call : FileCall) (fs : FileSystem) :
    call.run.AllOrNothing fs fs fun _ after => call.Apart ∧ fs.Becomes call.effect after := by
  cases call with
  | add target tree createParents =>
    have hadd := (FileSystem.add_becomes target tree createParents fs).discard
    exact hadd.mono fun _ _ hbecomes => ⟨trivial, hbecomes⟩
  | copy source destination recursive =>
    have hcopy := FileSystem.copy_becomes source destination recursive fs
    exact hcopy.mono fun _ _ hbecomes => ⟨trivial, hbecomes⟩
  | move source destination => exact FileSystem.move_becomes source destination fs
  | remove target => exact ⟨trivial, fun hfs => ⟨hfs.remove target, fs.look_remove target⟩⟩
  | openAt target mode =>
    have hopen := (FileSystem.openAt_becomes target mode fs).discard
    exact hopen.mono fun _ _ hbecomes => ⟨trivial, hbecomes⟩
  | moveMappings sources destination =>
    refine .get ?_
    cases fs.moveMappings sources destination with
    | ok pairs => exact ⟨trivial, fun hfs => ⟨hfs, rfl⟩⟩
    | error error => exact .throw error rfl

/-- A call that succeeds changes what is seen of a file system as its effect says, and its nodes can
still be told apart by their numbers. -/
theorem look_run {call : FileCall} (hfs : fs.Numbered) (hrun : call.run fs = .ok () after) :
    after.Numbered ∧ call.Apart ∧ ∀ names, after.look names = call.effect fs.look names := by
  have hcall := call.run_allOrNothing fs
  rw [FileOp.AllOrNothing, hrun] at hcall
  obtain ⟨hapart, hbecomes⟩ := hcall
  obtain ⟨hnumbered, hlook⟩ := hbecomes hfs
  exact ⟨hnumbered, hapart, congrFun hlook⟩

/-- A home directory with a note in it, and a directory for other files. -/
def desk : FileSystem :=
  .ofEntries [("home", .directory [("note", .file "first")]), ("tmp", .emptyDirectory)]

theorem look_run_desk :
    ∃ after, (move (Path.ofText "/home/") (Path.ofText "/tmp/old")).run desk = .ok () after ∧
      after.Numbered ∧ after.look ["tmp", "old", "note"] = .file "first" ∧
      after.look ["home", "note"] = .absent ∧ after.look ["tmp"] = .directory := by
  have hdesk : desk.Numbered := FileSystem.numbered_ofEntries _
  obtain ⟨hnumbered, -, hlook⟩ :=
    @look_run desk _ (move (Path.ofText "/home/") (Path.ofText "/tmp/old")) hdesk rfl
  refine ⟨_, rfl, hnumbered, ?_⟩
  rw [hlook, hlook, hlook]
  decide

/-- A call that fails changes nothing: no node, no number and no text. -/
theorem eq_of_run_error {call : FileCall} {error : FileError}
    (hrun : call.run fs = .error error after) : after = fs := by
  have hcall := call.run_allOrNothing fs
  rwa [FileOp.AllOrNothing, hrun] at hcall

theorem eq_of_run_error_desk :
    ∃ after, (add (Path.ofText "/home/note/new/page") (.file "second") true).run desk =
        .error (.notADirectory (Path.ofText "/home/note")) after ∧ after = desk :=
  ⟨_, rfl, @eq_of_run_error desk _ (add (Path.ofText "/home/note/new/page") (.file "second") true)
    (.notADirectory (Path.ofText "/home/note")) rfl⟩

/-! ## Runs -/

/-- The file system after several calls, one after the other. -/
def runAll (fs : FileSystem) : List FileCall → FileSystem
  | [] => fs
  | call :: calls =>
    match call.run fs with
    | .ok _ after => runAll after calls
    | .error _ after => runAll after calls

/-- A run of calls is seen as the effects of those that succeed. -/
theorem look_runAll (hfs : fs.Numbered) (calls : List FileCall) :
    (runAll fs calls).Numbered ∧ ∃ done : List FileCall, done.Sublist calls ∧
      (runAll fs calls).look = done.foldl (fun map call => call.effect map) fs.look := by
  induction calls generalizing fs with
  | nil => exact ⟨hfs, [], .slnil, rfl⟩
  | cons call calls ih =>
    rw [runAll]
    obtain ⟨value, middle, hrun, hcall⟩ | ⟨error, hrun⟩ := (call.run_allOrNothing fs).ok_or_error
    · rw [hrun]
      obtain ⟨hmiddle, hlook⟩ := hcall.2 hfs
      obtain ⟨hnumbered, done, hsub, hdone⟩ := ih hmiddle
      refine ⟨hnumbered, call :: done, hsub.cons_cons call, ?_⟩
      rwa [List.foldl_cons, ← hlook]
    · rw [hrun]
      obtain ⟨hnumbered, done, hsub, hdone⟩ := ih hfs
      exact ⟨hnumbered, done, hsub.cons call, hdone⟩

end FileCall

end MemShell
