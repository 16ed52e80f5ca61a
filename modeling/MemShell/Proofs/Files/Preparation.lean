import MemShell.Proofs.Files.Install
import MemShell.Proofs.Path.Ancestry

/-!
# Preparing a path

Before a node goes to a path, the directories above the path are made one after the other from the
root on, and then it is checked that nothing is in the way. Once one of these directories is new,
everything below it is absent, so that no later step can fail: a preparation that fails has changed
nothing.
-/

namespace MemShell

section Sequence

variable {ε σ α β : Type} {work : EStateM ε σ α} {next : α → EStateM ε σ β} {start after : σ}

/-- Work after work that succeeds goes on from where that ends. -/
theorem bind_ok {value : α} (h : work start = .ok value after) :
    (work >>= next) start = next value after := by
  change EStateM.bind work next start = _
  rw [EStateM.bind, h]

/-- Work after work that fails is not done. -/
theorem bind_error {error : ε} (h : work start = .error error after) :
    (work >>= next) start = .error error after := by
  change EStateM.bind work next start = _
  rw [EStateM.bind, h]

/-- Work after other work succeeds only where that does. -/
theorem exists_ok_of_bind {value : β} (h : (work >>= next) start = .ok value after) :
    ∃ first middle, work start = .ok first middle ∧ next first middle = .ok value after := by
  cases hwork : work start with
  | ok first middle => exact ⟨first, middle, rfl, (bind_ok hwork).symm.trans h⟩
  | error error middle => cases (bind_error hwork).symm.trans h

end Sequence

namespace FileOp

variable {α β : Type} {before fs : FileSystem}

/-- An operation that reads the file system goes on with it. -/
theorem get_bind (next : FileSystem → FileOp α) (fs : FileSystem) :
    (EStateM.get >>= next) fs = next fs fs :=
  rfl

/-- Run on a file system, an operation gives a result as it should, or it fails and leaves the file
system of before. -/
def AllOrNothing (op : FileOp α) (before fs : FileSystem) (done : α → FileSystem → Prop) : Prop :=
  match op fs with
  | .ok value after => done value after
  | .error _ after => after = before

namespace AllOrNothing

variable {op : FileOp α} {done : α → FileSystem → Prop}

/-- An operation has a result as it should, or an error and the file system of before. -/
theorem ok_or_error (h : op.AllOrNothing before fs done) :
    (∃ value after, op fs = .ok value after ∧ done value after) ∨
      ∃ error, op fs = .error error before := by
  rw [AllOrNothing] at h
  cases hop : op fs with
  | ok value after =>
    rw [hop] at h
    exact .inl ⟨value, after, rfl, h⟩
  | error error after =>
    rw [hop] at h
    exact .inr ⟨error, by rw [h]⟩

/-- Failing leaves the file system as it is. -/
theorem throw (error : FileError) (h : fs = before) :
    (throw error : FileOp α).AllOrNothing before fs done := h

/-- Reading the file system goes on with it. -/
theorem get {next : FileSystem → FileOp α} (h : (next fs).AllOrNothing before fs done) :
    (EStateM.get >>= next : FileOp α).AllOrNothing before fs done := h

/-- Of two operations the second may only fail where it still finds the file system of before. -/
theorem bind {next : α → FileOp β} {last : β → FileSystem → Prop}
    (h : op.AllOrNothing before fs done)
    (hnext : ∀ value made, done value made → (next value).AllOrNothing before made last) :
    (op >>= next).AllOrNothing before fs last := by
  rw [AllOrNothing]
  obtain ⟨value, made, hop, hdone⟩ | ⟨error, hop⟩ := h.ok_or_error
  · rw [bind_ok hop]
    exact hnext value made hdone
  · rw [bind_error hop]

/-- A check fails at once or goes on. -/
theorem throw_or {c : Prop} [Decidable c] {error : FileError} {next : PUnit → FileOp α}
    (h : ¬c → (next ⟨⟩).AllOrNothing fs fs done) :
    (if c then MonadExcept.throw error >>= next else next ⟨⟩).AllOrNothing fs fs done := by
  split
  · rfl
  · next hc => exact h hc

/-- A weaker result is given as well. -/
theorem mono {last : α → FileSystem → Prop} (h : op.AllOrNothing before fs done)
    (hlast : ∀ value after, done value after → last value after) :
    op.AllOrNothing before fs last := by
  rw [AllOrNothing]
  obtain ⟨value, after, hop, hdone⟩ | ⟨error, hop⟩ := h.ok_or_error
  · rw [hop]
    exact hlast value after hdone
  · rw [hop]

/-- What is given can be dropped. -/
theorem discard {done : FileSystem → Prop}
    (h : op.AllOrNothing before fs fun _ after => done after) :
    (Functor.discard op).AllOrNothing before fs fun _ after => done after := by
  have hdrop : (op >>= fun _ => pure PUnit.unit).AllOrNothing before fs fun _ after => done after :=
    h.bind fun _ _ hdone => hdone
  exact hdrop

end AllOrNothing

end FileOp

namespace FileSystem

variable {fs made : FileSystem}

/-! ## What is absent -/

/-- Names that lead nowhere have no variant and no number. -/
theorem find_eq_none_iff_stat {names : List Text} :
    fs.find names = none ↔ fs.stat names = none := by
  rw [stat, Node.stat, ← find, Option.map_eq_none_iff]

/-- Names that lead nowhere look absent. -/
theorem find_eq_none_iff_look {names : List Text} :
    fs.find names = none ↔ fs.look names = .absent := by
  rw [look]
  cases fs.find names with
  | none => simp
  | some node => cases node <;> simp

/-- Names that lead to a directory look like one. -/
theorem isDirectory_iff_look {names : List Text} :
    fs.IsDirectory names ↔ fs.look names = .directory := by
  rw [IsDirectory, look]
  cases fs.find names with
  | none => simp
  | some node => cases node <;> simp

/-- Nothing is below what is absent. -/
theorem find_eq_none_below {names others : List Text} (h : names <+: others)
    (hnames : fs.find names = none) : fs.find others = none := by
  obtain ⟨rest, rfl⟩ := h
  rw [find, Node.find_append, ← find, hnames]
  rfl

/-- A directory is not absent. -/
theorem IsDirectory.find_ne_none {names : List Text} (h : fs.IsDirectory names) :
    fs.find names ≠ none := by
  obtain ⟨inode, entries, hfind⟩ := h
  rw [hfind]
  exact Option.some_ne_none _

/-- A tree with nothing below it is seen where nothing was, and nothing else changes. -/
theorem look_attach_leaf {path : Path} (hpath : path.parts ≠ [])
    (hdir : fs.IsDirectory path.parent.parts) (habsent : fs.find path.parts = none)
    (h : fs.Numbered) {tree : Tree} (hleaf : ∀ name rest, tree.look (name :: rest) = .absent)
    (names : List Text) :
    (fs.attach path tree).look names = if names = path.parts then tree.view else fs.look names := by
  rw [look_attach hpath hdir h]
  by_cases hbelow : path.parts <+: names
  · have hlook : fs.look names = .absent :=
      find_eq_none_iff_look.1 (find_eq_none_below hbelow habsent)
    obtain ⟨rest, rfl⟩ := hbelow
    rw [if_pos (List.prefix_append _ _), List.drop_left, hlook]
    cases rest with
    | nil => rw [if_pos (List.append_nil _)]; rfl
    | cons name rest => rw [if_neg (by simp)]; exact hleaf name rest
  · have hne : names ≠ path.parts := fun heq => hbelow (heq ▸ List.prefix_refl _)
    rw [if_neg hbelow, if_neg hne]

/-! ## The directories above a path -/

/-- The path of the first names of a path is found by its names. -/
theorem get_upTo (fs : FileSystem) (path : Path) (depth : Nat) :
    fs.get (path.upTo depth) = fs.find (path.parts.take depth) := by
  have hroot : path.parts.take depth = [] →
      fs.find (path.parts.take depth) = some (.directory fs.rootInode fs.entries) := fun h => by
    rw [h]
    rfl
  rw [get, Path.parts_upTo]
  cases hfind : fs.find (path.parts.take depth) with
  | none => rfl
  | some node =>
    cases node with
    | directory inode entries => simp [Node.kind]
    | file inode | null inode =>
      have hflag : (path.upTo depth).isDirectory = false := by
        rw [Path.upTo, List.isEmpty_eq_false_iff]
        intro hnil
        rw [hroot hnil] at hfind
        cases hfind
      simp [hflag]

/-- The file system on the way to a path, after the directories of the first depths have been made.
-/
structure Raised (target : Path) (depth : Nat) (fs made : FileSystem) : Prop where
  /-- The last depth holds a directory. -/
  isDirectory : made.IsDirectory (target.parts.take (depth - 1))
  /-- Nothing has been made, or what comes next is absent. -/
  eq_or_absent : made = fs ∨ made.find (target.parts.take depth) = none
  /-- Numbers still tell nodes apart. -/
  numbered : fs.Numbered → made.Numbered
  /-- There are directories on the way, and nothing else has changed. -/
  look : fs.Numbered → ∀ names, made.look names =
    if names <+: target.parts ∧ names.length < depth then .directory else fs.look names

/-- Nothing is made at first. -/
theorem Raised.start (target : Path) (fs : FileSystem) : Raised target 0 fs fs where
  isDirectory := fs.isDirectory_root
  eq_or_absent := .inl rfl
  numbered := id
  look _ names := by rw [if_neg fun h => Nat.not_lt_zero _ h.2]

/-- A beginning of a path of a given depth is as long as the depth. -/
theorem eq_take_iff {names parts : List Text} {depth : Nat} (h : depth < parts.length) :
    names = parts.take depth ↔ names <+: parts ∧ names.length = depth := by
  rw [List.prefix_iff_eq_take]
  constructor
  · rintro rfl
    have hlength : (parts.take depth).length = depth := List.length_take_of_le (Nat.le_of_lt h)
    exact ⟨by rw [hlength], hlength⟩
  · rintro ⟨htake, rfl⟩
    exact htake

/-- What lies at the next depth or above lies above the next depth or at it. -/
theorem prefix_lt_succ_iff {names parts : List Text} {depth : Nat} (h : depth < parts.length) :
    (names <+: parts ∧ names.length < depth + 1) ↔
      (names <+: parts ∧ names.length < depth) ∨ names = parts.take depth := by
  rw [eq_take_iff h, ← and_or_left, Nat.lt_succ_iff_lt_or_eq]

section Step

variable {target : Path} {depth : Nat}

/-- A directory that is there already is left as it is. -/
theorem Raised.keep (h : Raised target depth fs made) (hdepth : depth < target.parts.length)
    (hdir : made.IsDirectory (target.parts.take depth)) : Raised target (depth + 1) fs made where
  isDirectory := hdir
  eq_or_absent := by
    rcases h.eq_or_absent with heq | habsent
    · exact .inl heq
    · exact absurd habsent hdir.find_ne_none
  numbered := h.numbered
  look hfs names := by
    simp only [prefix_lt_succ_iff hdepth]
    by_cases hlast : names = target.parts.take depth
    · rw [if_pos (.inr hlast), hlast]
      exact isDirectory_iff_look.1 hdir
    · simp only [hlast, or_false]
      exact h.look hfs names

/-- A directory that is missing is attached, and what is below it is absent. -/
theorem Raised.attach (h : Raised target depth fs made) (hdepth : depth < target.parts.length)
    (habsent : made.find (target.parts.take depth) = none) :
    Raised target (depth + 1) fs (made.attach (target.upTo depth) .emptyDirectory) := by
  have hpath : (target.upTo depth).parts ≠ [] := fun hnil => by
    rw [← Path.parts_upTo, hnil] at habsent
    cases habsent
  have hparent : made.IsDirectory (target.upTo depth).parent.parts := by
    rw [Path.parts_parent, Path.parts_upTo, List.dropLast_take hdepth]
    exact h.isDirectory
  have hstat := stat_attach hpath hparent .emptyDirectory
  refine ⟨?_, .inr ?_, fun hfs => (h.numbered hfs).attach hpath hparent _, fun hfs names => ?_⟩
  · rw [isDirectory_iff_stat, Nat.add_sub_cancel, ← Path.parts_upTo, hstat,
      if_pos (List.prefix_refl _), List.drop_length]
    exact ⟨_, rfl⟩
  · have hnext :
        target.parts.take (depth + 1) = (target.upTo depth).parts ++ [target.parts[depth]] :=
      List.take_succ_eq_append_getElem hdepth
    rw [find_eq_none_iff_stat, hnext, hstat, if_pos (List.prefix_append _ _), List.drop_left]
    rfl
  · rw [look_attach_leaf hpath hparent habsent (h.numbered hfs) fun _ _ => rfl, h.look hfs]
    simp only [prefix_lt_succ_iff hdepth, Path.parts_upTo]
    by_cases hlast : names = target.parts.take depth <;>
      simp [hlast, Tree.view, Tree.emptyDirectory]

/-- One more directory is made on the way to a path, or nothing has been made at all. -/
theorem Raised.ensureDirectory (h : Raised target depth fs made)
    (hdepth : depth < target.parts.length) :
    (ensureDirectory (target.upTo depth)).AllOrNothing fs made fun _ after =>
      Raised target (depth + 1) fs after := by
  refine .get ?_
  rw [get_upTo]
  cases hfind : made.find (target.parts.take depth) with
  | none => exact h.attach hdepth hfind
  | some node =>
    cases node with
    | directory inode entries => exact h.keep hdepth ⟨inode, entries, hfind⟩
    | file inode | null inode =>
      -- A file in the way has been there before, since what comes after a new directory is absent.
      refine .throw _ (h.eq_or_absent.resolve_right fun habsent => ?_)
      rw [habsent] at hfind
      cases hfind

end Step

/-- The directories of the first depths of a path are made, or nothing is. -/
theorem raised_upTo (target : Path) (fs : FileSystem) {depth : Nat}
    (hdepth : depth ≤ target.parts.length) :
    (((List.range depth).map target.upTo).forM ensureDirectory).AllOrNothing fs fs fun _ made =>
      Raised target depth fs made := by
  induction depth with
  | zero => exact Raised.start target fs
  | succ depth ih =>
    rw [List.range_succ, List.map_append, List.forM_eq_forM, List.forM_append]
    refine (ih (Nat.le_of_succ_le hdepth)).bind fun _ made hmade => ?_
    exact (hmade.ensureDirectory hdepth).bind fun _ after hafter => hafter

/-! ## Paths that are ready for a node -/

/-- A file system in which a path is ready to be given a node: its parent is a directory in which
its name is free. -/
structure Prepared (target : Path) (createParents : Bool) (fs made : FileSystem) : Prop where
  /-- The path is not the root. -/
  parts_ne_nil : target.parts ≠ []
  /-- The parent is a directory. -/
  isDirectory : made.IsDirectory target.parent.parts
  /-- Nothing is at the path. -/
  absent : made.find target.parts = none
  /-- Nothing changes unless parents are to be made. -/
  eq_of_not : createParents = false → made = fs
  /-- Numbers still tell nodes apart. -/
  numbered : fs.Numbered → made.Numbered
  /-- If parents are to be made there are directories above the path; nothing else has changed. -/
  look : fs.Numbered → ∀ names, made.look names =
    if createParents ∧ names <+: target.parts ∧ names ≠ target.parts then .directory
    else fs.look names

/-- A beginning of a list is shorter than the list or the list itself. -/
private theorem prefix_lt_length_iff {names parts : List Text} :
    (names <+: parts ∧ names.length < parts.length) ↔ names <+: parts ∧ names ≠ parts := by
  refine and_congr_right fun h => ?_
  rw [Nat.lt_iff_le_and_ne, and_iff_right h.length_le]
  exact not_congr ⟨h.eq_of_length, congrArg List.length⟩

/-- A path is ready when the directories above it have been made and its name is free. -/
theorem Raised.prepared {target : Path} (h : Raised target target.parts.length fs made)
    (hroot : target.parts ≠ []) (hdir : made.IsDirectory target.parent.parts)
    (habsent : made.find target.parts = none) : Prepared target true fs made := by
  refine ⟨hroot, hdir, habsent, Bool.noConfusion, h.numbered, fun hfs names => ?_⟩
  rw [h.look hfs]
  simp only [prefix_lt_length_iff, true_and]

/-- The last check of a path finds a directory in which the name of the path is free, or it fails.
It does not fail where this is already known. -/
private theorem check_allOrNothing {target : Path} (hroot : target.parts ≠ [])
    (h : made = fs ∨ made.IsDirectory target.parent.parts ∧ made.find target.parts = none) :
    (match made.get target.parent with
      | none => throw (.notFound target.parent)
      | some (.directory _ entries) =>
        if (entries.lookup target.fileName).isSome then throw (.alreadyExists target) else pure ()
      | some _ => throw (.notADirectory target.parent) : FileOp Unit).AllOrNothing fs made
      fun _ after => after = made ∧ made.IsDirectory target.parent.parts ∧
        made.find target.parts = none := by
  have hparent : made.get target.parent = made.find target.parent.parts := get_upTo made target _
  cases hfind : made.find target.parent.parts with
  | none =>
    rw [hparent, hfind]
    exact .throw _ (h.resolve_right fun hfree => hfree.1.find_ne_none hfind)
  | some node =>
    cases node with
    | directory inode entries =>
      have hname := find_concat hfind target.fileName
      rw [parts_eq_concat hroot] at hname
      rw [hparent, hfind]
      dsimp only
      rw [← hname]
      split
      · next hsome =>
        refine .throw _ (h.resolve_right fun hfree => ?_)
        rw [hfree.2] at hsome
        cases hsome
      · next hnone => exact ⟨rfl, ⟨inode, entries, hfind⟩, by simpa using hnone⟩
    | file inode | null inode =>
      rw [hparent, hfind]
      refine .throw _ (h.resolve_right fun hfree => ?_)
      simp [IsDirectory, hfind] at hfree

/-- A path is prepared for a node, or nothing changes. -/
theorem prepare_allOrNothing (target : Path) (kind : Kind) (createParents : Bool)
    (fs : FileSystem) :
    (prepare target kind createParents).AllOrNothing fs fs fun _ made =>
      Prepared target createParents fs made := by
  unfold prepare
  dsimp only
  refine .throw_or fun hroot => .throw_or fun _ => ?_
  have hparts : target.parts ≠ [] := fun hnil => hroot (Path.isRoot_iff.2 hnil)
  cases createParents with
  | true =>
    rw [if_pos rfl, Path.reverse_ancestors]
    refine (raised_upTo target fs (Nat.le_refl _)).bind fun _ made hmade => .get ?_
    have hfree :
        made = fs ∨ made.IsDirectory target.parent.parts ∧ made.find target.parts = none := by
      refine hmade.eq_or_absent.imp_right fun habsent => ⟨hmade.isDirectory, ?_⟩
      rwa [List.take_length] at habsent
    refine (check_allOrNothing hparts hfree).mono fun _ after hafter => ?_
    obtain ⟨rfl, hdir, habsent⟩ := hafter
    exact hmade.prepared hparts hdir habsent
  | false =>
    refine .get ((check_allOrNothing hparts (.inl rfl)).mono fun _ after hafter => ?_)
    obtain ⟨rfl, hdir, habsent⟩ := hafter
    exact ⟨hparts, hdir, habsent, fun _ => rfl, id, fun _ names => by simp⟩

end FileSystem

end MemShell
