import MemShell.Proofs.Files.Effects

/-!
# When a node can be added

A node can be added at a path if nothing is there and whatever lies above the path is a directory;
unless missing directories are to be made, the parent has to be there as well. Every obstacle has an
error of its own: a file above the path is named by its own path, however many directories are
missing below it, and a missing parent by the path of the parent. What has been added is found at
its path.
-/

namespace MemShell

mutual

/-- A tree that is put on the disk is read back as long as the texts of its numbers stay. -/
theorem Tree.contents_install {disk later : Disk} (tree : Tree)
    (h : ∀ inode < (tree.install disk).2.next,
      later.read inode = (tree.install disk).2.read inode) :
    (tree.install disk).1.contents later = tree :=
  match tree with
  | .directory entries => by
    rw [Tree.install] at h ⊢
    exact congrArg Tree.directory (Tree.contents_installEntries entries h)
  | .file text => by
    have hread := h disk.next (by rw [Tree.install, Disk.next_alloc]; exact Nat.lt_succ_self _)
    rw [Tree.install, Disk.read_alloc, if_pos rfl] at hread
    exact congrArg Tree.file hread
  | .null => rfl

/-- Entries that are put on the disk are read back as long as the texts of their numbers stay. -/
theorem Tree.contents_installEntries {disk later : Disk} (entries : List (Text × Tree))
    (h : ∀ inode < (Tree.installEntries entries disk).2.next,
      later.read inode = (Tree.installEntries entries disk).2.read inode) :
    Node.contentsOfEntries later (Tree.installEntries entries disk).1 = entries :=
  match entries with
  | [] => rfl
  | (name, tree) :: entries => by
    rw [Tree.installEntries] at h ⊢
    have hrest := Tree.stored_installEntries entries (tree.install disk).2
    have hfirst : (tree.install disk).1.contents later = tree := by
      refine Tree.contents_install tree fun inode hinode => ?_
      rw [h inode (Nat.lt_of_lt_of_le hinode hrest.next_le), hrest.read_eq inode hinode]
    rw [Node.contentsOfEntries, hfirst, Tree.contents_installEntries entries h]

end

namespace FileSystem

variable {fs made : FileSystem} {target : Path} {kind : Kind}

/-- What has something below it is a directory. -/
theorem isDirectory_above {names others : List Text} {node : Node}
    (h : fs.find others = some node) (habove : names <+: others) (hne : names ≠ others) :
    fs.IsDirectory names := by
  obtain ⟨rest, rfl⟩ := habove
  cases rest with
  | nil => exact absurd (List.append_nil names).symm hne
  | cons name rest =>
    rw [List.append_cons] at h
    rw [find, Node.find_append, ← find] at h
    obtain ⟨reached, hreached, -⟩ := Option.bind_eq_some_iff.1 h
    exact isDirectory_of_find_concat hreached

/-! ## Making the directories above a path -/

/-- Several operations go on with the others from where the first ones end. -/
theorem forM_append_ok {paths others : List Path} {work : Path → FileOp Unit}
    (h : paths.forM work fs = .ok () made) :
    (paths ++ others).forM work fs = others.forM work made := by
  rw [List.forM_eq_forM, List.forM_append]
  exact bind_ok h

section Ensure

variable {depth : Nat}

/-- A directory that is there is left as it is. -/
theorem ensureDirectory_of_directory (h : fs.IsDirectory (target.parts.take depth)) :
    ensureDirectory (target.upTo depth) fs = .ok () fs := by
  obtain ⟨inode, entries, hfind⟩ := h
  rw [ensureDirectory, FileOp.get_bind, get_upTo, hfind]
  rfl

/-- A missing directory is made. -/
theorem ensureDirectory_of_absent (h : fs.find (target.parts.take depth) = none) :
    ensureDirectory (target.upTo depth) fs =
      .ok () (fs.attach (target.upTo depth) .emptyDirectory) := by
  rw [ensureDirectory, FileOp.get_bind, get_upTo, h]
  rfl

/-- A file stands in the way of a directory. -/
theorem ensureDirectory_of_leaf {node : Node} (h : fs.find (target.parts.take depth) = some node)
    (hkind : node.kind ≠ .directory) :
    ensureDirectory (target.upTo depth) fs = .error (.notADirectory (target.upTo depth)) fs := by
  rw [ensureDirectory, FileOp.get_bind, get_upTo, h]
  cases node with
  | directory inode entries => exact absurd rfl hkind
  | file inode | null inode => rfl

end Ensure

/-- The directories above a path are made if no file stands in the way. Where they all were there
already nothing is made; otherwise there is nothing at the path. -/
theorem exists_raised {depth : Nat} (hdepth : depth ≤ target.parts.length)
    (hclear : ∀ above < depth, ∀ node,
      fs.find (target.parts.take above) = some node → node.kind = .directory) :
    ∃ made, ((List.range depth).map target.upTo).forM ensureDirectory fs = .ok () made ∧
      Raised target depth fs made ∧
      (made = fs ∨ fs.find (target.parts.take depth) = none) := by
  induction depth with
  | zero => exact ⟨fs, rfl, .start target fs, .inl rfl⟩
  | succ depth ih =>
    obtain ⟨made, hrun, hraised, hsame⟩ :=
      ih (Nat.le_of_succ_le hdepth) fun above habove => hclear above (Nat.lt_succ_of_lt habove)
    have hbelow : fs.find (target.parts.take depth) = none →
        fs.find (target.parts.take (depth + 1)) = none :=
      find_eq_none_below (List.take_prefix_take_left (Nat.le_succ depth))
    rw [List.range_succ, List.map_append, forM_append_ok hrun]
    cases hfind : made.find (target.parts.take depth) with
    | none =>
      have hfree : fs.find (target.parts.take depth) = none := by
        rcases hsame with rfl | hfree
        · exact hfind
        · exact hfree
      exact ⟨_, bind_ok (ensureDirectory_of_absent hfind), hraised.attach hdepth hfind,
        .inr (hbelow hfree)⟩
    | some node =>
      have hmade : made = fs := hraised.eq_or_absent.resolve_right (by simp [hfind])
      subst hmade
      have hdir : made.IsDirectory (target.parts.take depth) :=
        (isDirectory_iff_kind hfind).2 (hclear depth (Nat.lt_succ_self depth) node hfind)
      exact ⟨made, bind_ok (ensureDirectory_of_directory hdir), hraised.keep hdepth hdir,
        .inl rfl⟩

/-- A file above a path stops the making of directories before anything is made. -/
theorem raise_blocked {depth : Nat} (hdepth : depth < target.parts.length) {node : Node}
    (hfind : fs.find (target.parts.take depth) = some node) (hkind : node.kind ≠ .directory) :
    target.ancestors.reverse.forM ensureDirectory fs =
      .error (.notADirectory (target.upTo depth)) fs := by
  have hclear : ∀ above < depth, ∀ found,
      fs.find (target.parts.take above) = some found → found.kind = .directory := by
    intro above habove found hfound
    have hne : target.parts.take above ≠ target.parts.take depth := fun heq => by
      have hlength := congrArg List.length heq
      simp only [List.length_take] at hlength
      omega
    exact (isDirectory_iff_kind hfound).1 (isDirectory_above hfind
      (List.take_prefix_take_left (Nat.le_of_lt habove)) hne)
  obtain ⟨made, hrun, -, hsame⟩ := exists_raised (Nat.le_of_lt hdepth) hclear
  have hmade : made = fs := hsame.resolve_right (by simp [hfind])
  obtain ⟨more, hlength⟩ := Nat.exists_eq_add_of_lt hdepth
  subst hmade
  rw [Path.reverse_ancestors, hlength, Nat.add_assoc, List.range_add, List.map_append,
    forM_append_ok hrun, List.range_succ_eq_map]
  exact bind_error (ensureDirectory_of_leaf hfind hkind)

/-! ## Preparing a path -/

/-- A slash at the end of a path is for directories only. -/
def SlashFits (target : Path) (kind : Kind) : Prop :=
  target.isDirectory = true → kind = .directory

instance (target : Path) (kind : Kind) : Decidable (SlashFits target kind) :=
  inferInstanceAs (Decidable (_ → _))

section Prepare

variable {createParents : Bool}

/-- The root is there already. -/
theorem prepare_root (hroot : target.parts = []) :
    prepare target kind createParents fs = .error (.alreadyExists target) fs := by
  rw [prepare, Path.isRoot_iff.2 hroot]
  rfl

/-- A path with a slash at its end takes directories only. -/
theorem prepare_slash (hroot : target.parts ≠ []) (hslash : ¬SlashFits target kind) :
    prepare target kind createParents fs = .error (.notADirectory target) fs := by
  obtain ⟨hflag, hkind⟩ := Classical.not_imp.1 hslash
  have hisRoot : target.isRoot = false := by simpa [Path.isRoot] using hroot
  rw [prepare, hisRoot, hflag]
  cases kind with
  | directory => exact absurd rfl hkind
  | file | null => rfl

variable (hroot : target.parts ≠ []) (hslash : SlashFits target kind)

include hroot hslash

/-- The checks of the path alone are passed. -/
private theorem passes_checks :
    target.isRoot = false ∧ (target.isDirectory && kind != .directory) = false := by
  refine ⟨by simpa [Path.isRoot] using hroot, ?_⟩
  cases hflag : target.isDirectory with
  | false => rfl
  | true => rw [hslash hflag]; rfl

/-- The directories above a path are made before the path is checked. -/
theorem prepare_parents :
    prepare target kind true fs =
      (target.ancestors.reverse.forM ensureDirectory >>= fun _ =>
        prepare target kind false) fs := by
  obtain ⟨hisRoot, hkind⟩ := passes_checks hroot hslash
  rw [prepare, prepare, hisRoot, hkind]
  rfl

/-- A path whose parent is missing is not prepared. -/
theorem prepare_orphan (hparent : fs.get target.parent = none) :
    prepare target kind false fs = .error (.notFound target.parent) fs := by
  obtain ⟨hisRoot, hkind⟩ := passes_checks hroot hslash
  rw [prepare, hisRoot, hkind]
  change (EStateM.get >>= _ : FileOp Unit) fs = _
  rw [FileOp.get_bind, hparent]
  rfl

/-- In a directory a path is prepared if its name is free. -/
theorem prepare_of_isDirectory (hdir : fs.IsDirectory target.parent.parts) :
    prepare target kind false fs =
      if (fs.find target.parts).isSome then .error (.alreadyExists target) fs else .ok () fs := by
  obtain ⟨hisRoot, hkind⟩ := passes_checks hroot hslash
  obtain ⟨inode, entries, hfind⟩ := hdir
  have hparent : fs.get target.parent = some (.directory inode entries) :=
    (get_upTo fs target _).trans hfind
  have hname : fs.find target.parts = entries.lookup target.fileName := by
    rw [← find_concat hfind, parts_eq_concat hroot]
  rw [prepare, hisRoot, hkind, hname]
  change (EStateM.get >>= _ : FileOp Unit) fs = _
  rw [FileOp.get_bind, hparent]
  dsimp only
  split <;> rfl

/-- A file above a path is named by its own path. -/
theorem prepare_blocked {depth : Nat} (hdepth : depth < target.parts.length) {node : Node}
    (hfind : fs.find (target.parts.take depth) = some node) (hkind : node.kind ≠ .directory) :
    prepare target kind true fs = .error (.notADirectory (target.upTo depth)) fs := by
  rw [prepare_parents hroot hslash]
  exact bind_error (raise_blocked hdepth hfind hkind)

/-- Where no file stands above a path the path is prepared if nothing is there. -/
theorem prepare_of_clear
    (hclear : ∀ depth < target.parts.length, ∀ node,
      fs.find (target.parts.take depth) = some node → node.kind = .directory) :
    match fs.find target.parts with
    | some _ => prepare target kind true fs = .error (.alreadyExists target) fs
    | none => ∃ made, prepare target kind true fs = .ok () made := by
  obtain ⟨made, hrun, hraised, hsame⟩ := exists_raised (Nat.le_refl target.parts.length) hclear
  rw [prepare_parents hroot hslash, Path.reverse_ancestors, bind_ok hrun,
    prepare_of_isDirectory hroot hslash hraised.isDirectory]
  rw [List.take_length] at hsame
  cases hfind : fs.find target.parts with
  | some node =>
    have hmade : made = fs := hsame.resolve_right (by simp [hfind])
    simp [hmade, hfind]
  | none =>
    have hfree : made.find target.parts = none := by
      rcases hraised.eq_or_absent with rfl | hfree
      · exact hfind
      · rwa [List.take_length] at hfree
    simp [hfree]

end Prepare

/-! ## Adding -/

/-- A path admits a node of a variant: the node can be added there once the directories above the
path have been made. -/
structure Admits (fs : FileSystem) (target : Path) (kind : Kind) : Prop where
  /-- The path is not the root. -/
  not_root : target.parts ≠ []
  /-- A slash at the end of the path is for directories only. -/
  slash : SlashFits target kind
  /-- Whatever lies above the path is a directory. -/
  clear : ∀ above ∈ target.ancestors, ∀ node ∈ fs.get above, node.kind = .directory
  /-- Nothing lies at the names of the path. -/
  free : fs.find target.parts = none

instance (fs : FileSystem) (target : Path) (kind : Kind) : Decidable (fs.Admits target kind) :=
  decidable_of_iff
    (target.parts ≠ [] ∧ SlashFits target kind ∧
      (∀ above ∈ target.ancestors, ∀ node ∈ fs.get above, node.kind = .directory) ∧
      fs.find target.parts = none)
    ⟨fun ⟨hroot, hslash, hclear, hfree⟩ => ⟨hroot, hslash, hclear, hfree⟩,
      fun ⟨hroot, hslash, hclear, hfree⟩ => ⟨hroot, hslash, hclear, hfree⟩⟩

/-- Whatever lies above a path is a directory if this holds of the beginnings of its names. -/
theorem clear_iff :
    (∀ above ∈ target.ancestors, ∀ node ∈ fs.get above, node.kind = .directory) ↔
      ∀ depth < target.parts.length, ∀ node,
        fs.find (target.parts.take depth) = some node → node.kind = .directory := by
  simp only [Path.mem_ancestors_iff]
  constructor
  · intro h depth hdepth node hfind
    exact h _ ⟨depth, hdepth, rfl⟩ node (by rwa [get_upTo])
  · rintro h _ ⟨depth, hdepth, rfl⟩ node hget
    rw [get_upTo] at hget
    exact h depth hdepth node hget

/-- A path is prepared only for a node that it has room for. -/
theorem slash_of_prepare {createParents : Bool} (hroot : target.parts ≠ [])
    (hrun : prepare target kind createParents fs = .ok () made) : SlashFits target kind := by
  refine Classical.byContradiction fun hslash => ?_
  rw [prepare_slash hroot hslash] at hrun
  cases hrun

/-- A path is prepared with the directories above it exactly if it admits the node. -/
theorem exists_prepare_iff :
    (∃ made, prepare target kind true fs = .ok () made) ↔ fs.Admits target kind := by
  constructor
  · rintro ⟨made, hrun⟩
    have hroot : target.parts ≠ [] := fun hnil => by
      rw [prepare_root hnil] at hrun
      cases hrun
    have hslash := slash_of_prepare hroot hrun
    have hclear : ∀ depth < target.parts.length, ∀ node,
        fs.find (target.parts.take depth) = some node → node.kind = .directory := by
      intro depth hdepth node hfind
      refine Decidable.byContradiction fun hkind => ?_
      rw [prepare_blocked hroot hslash hdepth hfind hkind] at hrun
      cases hrun
    refine ⟨hroot, hslash, clear_iff.2 hclear, ?_⟩
    have hoccupied := prepare_of_clear hroot hslash hclear
    cases hfind : fs.find target.parts with
    | none => rfl
    | some node =>
      rw [hfind, hrun] at hoccupied
      cases hoccupied
  · rintro ⟨hroot, hslash, hclear, hfree⟩
    have hprepared := prepare_of_clear hroot hslash (clear_iff.1 hclear)
    rwa [hfree] at hprepared

/-- A path is prepared without the directories above it exactly if it admits the node and its
parent is there. -/
theorem exists_prepare_false_iff :
    (∃ made, prepare target kind false fs = .ok () made) ↔
      fs.Admits target kind ∧ (fs.get target.parent).isSome := by
  have hparent : fs.get target.parent = fs.find target.parent.parts := get_upTo fs target _
  constructor
  · rintro ⟨made, hrun⟩
    have hprepared := prepare_allOrNothing target kind false fs
    rw [FileOp.AllOrNothing, hrun] at hprepared
    obtain rfl := hprepared.eq_of_not rfl
    obtain ⟨inode, entries, hfind⟩ := hprepared.isDirectory
    have hroot := hprepared.parts_ne_nil
    refine ⟨⟨hroot, slash_of_prepare hroot hrun, clear_iff.2 ?_, hprepared.absent⟩, ?_⟩
    · intro depth hdepth node hnode
      have habove : target.parts.take depth <+: target.parent.parts := by
        rw [Path.parts_parent, List.dropLast_eq_take]
        exact List.take_prefix_take_left (Nat.le_sub_one_of_lt hdepth)
      by_cases hlast : target.parts.take depth = target.parent.parts
      · rw [hlast, hfind] at hnode
        cases hnode
        rfl
      · exact (isDirectory_iff_kind hnode).1 (isDirectory_above hfind habove hlast)
    · rw [hparent, hfind]
      rfl
  · rintro ⟨⟨hroot, hslash, hclear, hfree⟩, hsome⟩
    obtain ⟨node, hget⟩ := Option.isSome_iff_exists.1 hsome
    have hmem : target.parent ∈ target.ancestors :=
      Path.mem_ancestors_iff.2 ⟨_, Nat.sub_one_lt (by simpa using hroot), rfl⟩
    have hdir : fs.IsDirectory target.parent.parts :=
      (isDirectory_iff_kind (hparent ▸ hget)).2 (hclear _ hmem node hget)
    exact ⟨fs, by simp [prepare_of_isDirectory hroot hslash hdir, hfree]⟩

section Add

variable {tree : Tree} {createParents : Bool}

/-- A tree is attached to a path that has been prepared. -/
theorem add_of_prepare (h : prepare target tree.kind createParents fs = .ok () made) :
    add target tree createParents fs =
      .ok (tree.install made.disk).1 (made.attach target tree) :=
  bind_ok h

/-- Where a path cannot be prepared nothing is added. -/
theorem add_of_prepare_error {error : FileError}
    (h : prepare target tree.kind createParents fs = .error error made) :
    add target tree createParents fs = .error error made :=
  bind_error h

/-- A tree is added exactly if the path can be prepared for it. -/
theorem exists_add_iff :
    (∃ node after, add target tree createParents fs = .ok node after) ↔
      ∃ made, prepare target tree.kind createParents fs = .ok () made := by
  cases hrun : prepare target tree.kind createParents fs with
  | ok value made => simp [add_of_prepare hrun]
  | error error made => simp [add_of_prepare_error hrun]

/-- What has been added is found at its path, with the contents that it was to have. -/
theorem get_of_add {node : Node} {after : FileSystem}
    (h : add target tree createParents fs = .ok node after) :
    after.get target = some node ∧ node.contents after.disk = tree := by
  obtain ⟨made, hrun⟩ := exists_add_iff.1 ⟨node, after, h⟩
  have hprepared := prepare_allOrNothing target tree.kind createParents fs
  rw [FileOp.AllOrNothing, hrun] at hprepared
  rw [add_of_prepare hrun, EStateM.Result.ok.injEq] at h
  obtain ⟨rfl, rfl⟩ := h
  have hfind : (made.attach target tree).find target.parts = some (tree.install made.disk).1 :=
    find_link _ hprepared.parts_ne_nil hprepared.isDirectory _
  refine ⟨?_, tree.contents_install fun _ _ => rfl⟩
  have hslash : target.isDirectory = true → tree.kind = .directory :=
    slash_of_prepare hprepared.parts_ne_nil hrun
  rw [get, hfind]
  cases hflag : target.isDirectory with
  | false => rfl
  | true => simp [hslash hflag]

end Add

/-- A tree can be added with the directories above its path exactly if the path admits it, and
without them exactly if the parent is there as well. A file above the path, and a missing parent,
are named by their own paths. What has been added is found. -/
theorem add_iff_admits (fs : FileSystem) (target : Path) (tree : Tree) :
    ((∃ node after, add target tree true fs = .ok node after) ↔ fs.Admits target tree.kind) ∧
      (∀ above ∈ target.ancestors, ∀ node ∈ fs.get above, node.kind ≠ .directory →
        SlashFits target tree.kind →
          add target tree true fs = .error (.notADirectory above) fs) ∧
      ((∃ node after, add target tree false fs = .ok node after) ↔
        fs.Admits target tree.kind ∧ (fs.get target.parent).isSome) ∧
      (target.parts ≠ [] → SlashFits target tree.kind → fs.get target.parent = none →
        add target tree false fs = .error (.notFound target.parent) fs) ∧
      ∀ createParents node after, add target tree createParents fs = .ok node after →
        after.get target = some node ∧ node.contents after.disk = tree := by
  refine ⟨exists_add_iff.trans exists_prepare_iff, ?_,
    exists_add_iff.trans exists_prepare_false_iff, ?_, fun _ _ _ => get_of_add⟩
  · intro above habove node hget hkind hslash
    obtain ⟨depth, hdepth, rfl⟩ := Path.mem_ancestors_iff.1 habove
    have hroot : target.parts ≠ [] := List.ne_nil_of_length_pos (Nat.zero_lt_of_lt hdepth)
    rw [get_upTo] at hget
    exact add_of_prepare_error (prepare_blocked hroot hslash hdepth hget hkind)
  · intro hroot hslash hparent
    exact add_of_prepare_error (prepare_orphan hroot hslash hparent)

/-- A home directory with a note in it. -/
def attic : FileSystem := .ofEntries [("home", .directory [("note", .file "first")])]

theorem add_iff_admits_attic :
    (∃ node after, add (Path.ofText "/home/box/old/") .emptyDirectory true attic = .ok node after ∧
        after.get (Path.ofText "/home/box/old/") = some node) ∧
      add (Path.ofText "/home/note/new/page") (.file "second") true attic =
        .error (.notADirectory (Path.ofText "/home/note")) attic ∧
      add (Path.ofText "/home/box/old/") .emptyDirectory false attic =
        .error (.notFound (Path.ofText "/home/box")) attic := by
  obtain ⟨hparents, -, -, horphan, hfound⟩ :=
    add_iff_admits attic (Path.ofText "/home/box/old/") .emptyDirectory
  obtain ⟨-, hblocked, -⟩ :=
    add_iff_admits attic (Path.ofText "/home/note/new/page") (.file "second")
  obtain ⟨node, after, hadd⟩ := hparents.2 (by decide)
  exact ⟨⟨node, after, hadd, (hfound true node after hadd).1⟩,
    hblocked (Path.ofText "/home/note") (by decide) (.file 2) rfl nofun (by decide),
    horphan (by decide) (by decide) rfl⟩

end FileSystem

end MemShell
