import MemShell.Proofs.Files.Calls

/-!
# Where nodes go

A call that succeeds carries every node to a place or drops it, and whatever else is there
afterwards has a number that no node had before. So a node can be followed by its number through
moves of itself and of the directories above it, and a copy is never taken for it.
-/

namespace MemShell

namespace FileOp

variable {α β : Type} {fs : FileSystem}

/-- Run on a file system, an operation leaves things as they should be if it succeeds. -/
def Leaves (op : FileOp α) (fs : FileSystem) (done : α → FileSystem → Prop) : Prop :=
  ∀ value after, op fs = .ok value after → done value after

namespace Leaves

variable {op : FileOp α} {done : α → FileSystem → Prop}

/-- Giving a value leaves the file system as it is. -/
theorem pure {value : α} (h : done value fs) : (Pure.pure value : FileOp α).Leaves fs done := by
  rintro _ _ ⟨⟩
  exact h

/-- Failing leaves nothing to be shown. -/
theorem throw (error : FileError) : (throw error : FileOp α).Leaves fs done := nofun

/-- Reading the file system goes on with it. -/
theorem get {next : FileSystem → FileOp α} (h : (next fs).Leaves fs done) :
    (EStateM.get >>= next : FileOp α).Leaves fs done := h

/-- Of two operations the second starts from what the first leaves. -/
theorem bind {next : α → FileOp β} {last : β → FileSystem → Prop} (h : op.Leaves fs done)
    (hnext : ∀ value made, done value made → (next value).Leaves made last) :
    (op >>= next).Leaves fs last := by
  intro value after hrun
  cases hop : op fs with
  | ok middle made =>
    rw [bind_ok hop] at hrun
    exact hnext middle made (h middle made hop) value after hrun
  | error error made =>
    rw [bind_error hop] at hrun
    cases hrun

/-- A check fails or goes on. -/
theorem throw_or {c : Prop} [Decidable c] {error : FileError} {next : PUnit → FileOp α}
    (h : ¬c → (next ⟨⟩).Leaves fs done) :
    (if c then MonadExcept.throw error >>= next else next ⟨⟩).Leaves fs done := by
  split
  · exact nofun
  · next hc => exact h hc

/-- A weaker result is left as well. -/
theorem mono {last : α → FileSystem → Prop} (h : op.Leaves fs done)
    (hlast : ∀ value after, done value after → last value after) : op.Leaves fs last :=
  fun value after hrun => hlast value after (h value after hrun)

/-- What is given can be dropped. -/
theorem discard {done : FileSystem → Prop} (h : op.Leaves fs fun _ after => done after) :
    (Functor.discard op).Leaves fs fun _ after => done after := by
  have hdrop : (op >>= fun _ => Pure.pure PUnit.unit).Leaves fs fun _ after => done after :=
    h.bind fun _ _ hdone => .pure hdone
  exact hdrop

end Leaves

/-- What an operation that does all or nothing leaves when it succeeds, with something else that it
leaves then. -/
theorem AllOrNothing.leaves_and {op : FileOp α} {before : FileSystem}
    {done also : α → FileSystem → Prop} (h : op.AllOrNothing before fs done)
    (halso : op.Leaves fs also) :
    op.Leaves fs fun value after => done value after ∧ also value after := by
  intro value after hop
  rw [AllOrNothing, hop] at h
  exact ⟨h, halso value after hop⟩

end FileOp

/-- Where a call that succeeds carries the node at a list of names, unless it drops the node. -/
def FileCall.carry (fs : FileSystem) : FileCall → List Text → Option (List Text)
  | move source destination, names =>
    some (if source.parts <+: names then destination.parts ++ names.drop source.parts.length
      else names)
  | remove target, names =>
    if FileMap.Resolves fs.look target ∧ target.parts <+: names ∧ names ≠ [] then none
    else some names
  | _, names => some names

namespace FileSystem

/-- A file system is what another has become by carrying its nodes to other places or dropping them.
-/
structure Carries (fs : FileSystem) (carry : List Text → Option (List Text))
    (after : FileSystem) : Prop where
  /-- No number is taken back. -/
  next_le : fs.disk.next ≤ after.disk.next
  /-- A node is found at the place to which it is carried. -/
  stat_eq : ∀ {names place found}, fs.stat names = some found → carry names = some place →
    after.stat place = some found
  /-- A node with an old number has been carried to where it is found. -/
  origin : ∀ {place kind inode}, after.stat place = some (kind, inode) → inode < fs.disk.next →
    ∃ names, fs.stat names = some (kind, inode) ∧ carry names = some place

variable {fs made after : FileSystem}

namespace Carries

/-- A file system with the same nodes carries them nowhere. -/
theorem of_stat_eq (hnext : fs.disk.next ≤ after.disk.next)
    (hstat : ∀ names, after.stat names = fs.stat names) : fs.Carries some after where
  next_le := hnext
  stat_eq hnames hplace := by
    cases hplace
    rw [hstat]
    exact hnames
  origin {place kind inode} hplace _ := ⟨place, by rwa [← hstat], rfl⟩

/-- Nothing is carried anywhere if nothing is done. -/
theorem refl (fs : FileSystem) : fs.Carries some fs := .of_stat_eq (Nat.le_refl _) fun _ => rfl

/-- Nodes are carried on from where they have been carried. -/
theorem trans {carry : List Text → Option (List Text)} (h : fs.Carries some made)
    (hlater : made.Carries carry after) : fs.Carries carry after where
  next_le := Nat.le_trans h.next_le hlater.next_le
  stat_eq hnames hplace := hlater.stat_eq (h.stat_eq hnames rfl) hplace
  origin hplace hlt := by
    obtain ⟨middle, hmiddle, hcarry⟩ := hlater.origin hplace (Nat.lt_of_lt_of_le hlt h.next_le)
    obtain ⟨names, hnames, hsame⟩ := h.origin hmiddle hlt
    cases hsame
    exact ⟨_, hnames, hcarry⟩

end Carries

/-- Attaching a tree where nothing was leaves all nodes where they are. -/
theorem carries_attach {path : Path} (hpath : path.parts ≠ [])
    (hdir : fs.IsDirectory path.parent.parts) (habsent : fs.find path.parts = none)
    (tree : Tree) : fs.Carries some (fs.attach path tree) where
  next_le := (tree.stored_install fs.disk).next_le
  stat_eq {names place found} hnames hplace := by
    cases hplace
    have hbeside : ¬path.parts <+: names := fun hbelow => by
      rw [find_eq_none_iff_stat.1 (find_eq_none_below hbelow habsent)] at hnames
      cases hnames
    rwa [stat_attach hpath hdir, if_neg hbeside]
  origin {place kind inode} hplace hlt := by
    rw [stat_attach hpath hdir] at hplace
    split at hplace
    · have hnew := ((tree.stored_install fs.disk).bounds hplace).1
      exact absurd hlt (Nat.not_lt.2 hnew)
    · exact ⟨place, hplace, rfl⟩

/-! ## Preparing, adding and copying -/

section Prepare

variable {target : Path}

/-- Making sure of a directory on the way to a path leaves all nodes where they are. -/
theorem leaves_ensureDirectory {depth : Nat} (h : Raised target depth fs made)
    (hdepth : depth < target.parts.length) :
    (ensureDirectory (target.upTo depth)).Leaves made fun _ after => made.Carries some after := by
  refine .get ?_
  rw [get_upTo]
  cases hfind : made.find (target.parts.take depth) with
  | none =>
    rintro _ _ ⟨⟩
    have hpath : (target.upTo depth).parts ≠ [] := fun hnil => by
      rw [← Path.parts_upTo, hnil] at hfind
      cases hfind
    have hparent : made.IsDirectory (target.upTo depth).parent.parts := by
      rw [Path.parts_parent, Path.parts_upTo, List.dropLast_take hdepth]
      exact h.isDirectory
    exact carries_attach hpath hparent hfind .emptyDirectory
  | some node =>
    cases node with
    | directory inode entries => exact .pure (.refl made)
    | file inode | null inode => exact .throw _

/-- Making the directories of the first depths of a path leaves all nodes where they are. -/
theorem leaves_upTo (target : Path) (fs : FileSystem) {depth : Nat}
    (hdepth : depth ≤ target.parts.length) :
    (((List.range depth).map target.upTo).forM ensureDirectory).Leaves fs fun _ made =>
      Raised target depth fs made ∧ fs.Carries some made := by
  induction depth with
  | zero => exact .pure ⟨.start target fs, .refl fs⟩
  | succ depth ih =>
    rw [List.range_succ, List.map_append, List.forM_eq_forM, List.forM_append]
    refine (ih (Nat.le_of_succ_le hdepth)).bind fun _ made hmade => ?_
    obtain ⟨hraised, hcarries⟩ := hmade
    have hnext := (hraised.ensureDirectory hdepth).leaves_and
      (leaves_ensureDirectory hraised hdepth)
    exact hnext.bind fun _ after hafter => .pure ⟨hafter.1, hcarries.trans hafter.2⟩

/-- The last check of a path changes nothing. -/
private theorem leaves_check :
    (match made.get target.parent with
      | none => throw (.notFound target.parent)
      | some (.directory _ entries) =>
        if (entries.lookup target.fileName).isSome then throw (.alreadyExists target) else pure ()
      | some _ => throw (.notADirectory target.parent) : FileOp Unit).Leaves made
      fun _ after => after = made := by
  split
  · exact .throw _
  · split
    · exact .throw _
    · exact .pure rfl
  · exact .throw _

/-- Preparing a path leaves all nodes where they are. -/
theorem leaves_prepare (target : Path) (kind : Kind) (createParents : Bool) (fs : FileSystem) :
    (prepare target kind createParents).Leaves fs fun _ made =>
      Prepared target createParents fs made ∧ fs.Carries some made := by
  refine (prepare_allOrNothing target kind createParents fs).leaves_and ?_
  unfold prepare
  dsimp only
  refine .throw_or fun _ => .throw_or fun _ => ?_
  cases createParents with
  | true =>
    rw [if_pos rfl, Path.reverse_ancestors]
    refine (leaves_upTo target fs (Nat.le_refl _)).bind fun _ made hmade => .get ?_
    rintro _ _ hcheck
    rw [leaves_check _ _ hcheck]
    exact hmade.2
  | false =>
    rintro _ _ hcheck
    rw [leaves_check _ _ hcheck]
    exact .refl fs

/-- Adding a tree leaves all nodes where they are. -/
theorem leaves_add (target : Path) (tree : Tree) (createParents : Bool) (fs : FileSystem) :
    (add target tree createParents).Leaves fs fun _ after => fs.Carries some after := by
  refine (leaves_prepare target tree.kind createParents fs).bind fun _ made hmade => ?_
  obtain ⟨hprepared, hcarries⟩ := hmade
  rintro _ _ ⟨⟩
  exact hcarries.trans
    (carries_attach hprepared.parts_ne_nil hprepared.isDirectory hprepared.absent tree)

/-- Copying leaves all nodes where they are. -/
theorem leaves_copy (source destination : Path) (recursive : Bool) (fs : FileSystem) :
    (copy source destination recursive).Leaves fs fun _ after => fs.Carries some after := by
  unfold copy
  dsimp only
  refine .throw_or fun _ => .get ?_
  cases fs.get source with
  | none => exact .throw _
  | some node => exact .throw_or fun _ => (leaves_add _ _ _ fs).discard

end Prepare

/-! ## Moving and removing -/

/-- A move carries everything at the source and below it to the destination. -/
theorem Prepared.carries_move {source destination : Path} {node : Node}
    (h : Prepared destination false fs fs) (hsource : fs.find source.parts = some node)
    (habove : ¬source.isAncestorOf destination = true) :
    fs.Carries ((FileCall.move source destination).carry fs)
      ((fs.link destination node).unlink source) where
  next_le := Nat.le_refl _
  stat_eq {names place found} hnames hplace := by
    cases hplace
    rw [h.stat_move hsource habove]
    by_cases hunder : source.parts <+: names
    · obtain ⟨rest, rfl⟩ := hunder
      simpa using hnames
    · have hbeside : ¬destination.parts <+: names := fun hbelow => by
        rw [find_eq_none_iff_stat.1 (find_eq_none_below hbelow h.absent)] at hnames
        cases hnames
      rwa [if_neg hunder, if_neg hbeside, if_neg hunder]
  origin {place kind inode} hplace _ := by
    rw [h.stat_move hsource habove] at hplace
    split at hplace
    · next hbelow =>
      obtain ⟨rest, rfl⟩ := hbelow
      exact ⟨source.parts ++ rest, by simpa using hplace, by simp [FileCall.carry]⟩
    · split at hplace
      · cases hplace
      · next hunder => exact ⟨place, hplace, by simp [FileCall.carry, hunder]⟩

/-- A successful move carries nodes as it should. -/
theorem leaves_move (source destination : Path) (fs : FileSystem) :
    (move source destination).Leaves fs fun _ after =>
      fs.Carries ((FileCall.move source destination).carry fs) after := by
  unfold move
  dsimp only
  refine .throw_or fun habove => .get ?_
  cases hget : fs.get source with
  | none => exact .throw _
  | some node =>
    refine (leaves_prepare destination node.kind false fs).bind fun _ made hmade => ?_
    obtain rfl := hmade.1.eq_of_not rfl
    rintro _ _ ⟨⟩
    exact hmade.1.carries_move (find_of_get hget) habove

/-- A removal changes no text. -/
theorem disk_remove (fs : FileSystem) (target : Path) : (fs.remove target).disk = fs.disk := by
  rw [remove]
  split
  · rfl
  · split <;> rfl

/-- A removal drops everything at its path and below it, if the path resolves. -/
theorem carries_remove (target : Path) (fs : FileSystem) :
    fs.Carries ((FileCall.remove target).carry fs) (fs.remove target) := by
  by_cases hget : (fs.get target).isSome
  · have hresolves := isSome_get_iff_resolves.1 hget
    have hdisk : (fs.remove target).disk = fs.disk := disk_remove fs target
    refine ⟨Nat.le_of_eq (by rw [hdisk]), fun {names place found} hnames hplace => ?_,
      fun {place kind inode} hplace _ => ?_⟩
    · rw [FileCall.carry] at hplace
      split at hplace
      · cases hplace
      · next hkept =>
        cases hplace
        rw [stat_remove hget, if_neg fun hunder => hkept ⟨hresolves, hunder⟩]
        exact hnames
    · rw [stat_remove hget] at hplace
      split at hplace
      · cases hplace
      · next hkept =>
        exact ⟨place, hplace, by rw [FileCall.carry, if_neg fun hunder => hkept hunder.2]⟩
  · have hcarry : (FileCall.remove target).carry fs = some := by
      funext names
      rw [FileCall.carry, if_neg fun hunder => hget (isSome_get_iff_resolves.2 hunder.1)]
    rw [hcarry, remove_of_not_resolves hget]
    exact .refl fs

/-! ## Opening -/

/-- A stream on what is at a path, as opening it in a mode makes it. -/
inductive Opened (fs : FileSystem) (target : Path) (mode : OpenMode) : Stream → Prop
  /-- A stream on a file starts where the mode says. -/
  | file {inode : Inode} (hstat : fs.stat target.parts = some (.file, inode)) :
    Opened fs target mode (.file inode (startOf mode (fs.disk.read inode)))
  /-- A stream on a null file. -/
  | null {inode : Inode} (hstat : fs.stat target.parts = some (.null, inode)) :
    Opened fs target mode .null

/-- Opening a node that is no directory leaves all nodes where they are and gives a stream on it. -/
theorem leaves_openNode {target : Path} {node : Node} (hfind : fs.find target.parts = some node)
    (hkind : node.kind ≠ .directory) (mode : OpenMode) :
    (openNode mode node).Leaves fs fun stream after =>
      after.Opened target mode stream ∧ fs.Carries some after := by
  have hstat : fs.stat target.parts = some (node.kind, node.inode) := by
    rw [stat, Node.stat, ← find, hfind]
    rfl
  cases node with
  | directory inode entries => exact absurd rfl hkind
  | file inode =>
    have hopen : ∀ after : FileSystem, (∀ names, after.stat names = fs.stat names) →
        fs.disk.next ≤ after.disk.next →
        after.Opened target mode (.file inode (startOf mode (after.disk.read inode))) ∧
          fs.Carries some after :=
      fun after hsame hnext => ⟨.file (by rw [hsame]; exact hstat), .of_stat_eq hnext hsame⟩
    cases mode with
    | write =>
      rintro _ _ ⟨⟩
      exact hopen (truncate .write inode fs) (fun _ => rfl)
        (Nat.le_of_eq (Disk.next_write _ _ _).symm)
    | read | append =>
      rintro _ _ ⟨⟩
      exact hopen fs (fun _ => rfl) (Nat.le_refl _)
  | null inode =>
    rintro _ _ ⟨⟩
    exact ⟨.null hstat, .refl fs⟩

/-- Opening what is at a path, or making it, leaves all nodes where they are and gives a stream on
what is there. -/
theorem leaves_openAt (target : Path) (mode : OpenMode) (fs : FileSystem) :
    (openAt target mode).Leaves fs fun stream after =>
      after.Opened target mode stream ∧ fs.Carries some after := by
  refine .get ?_
  cases hget : fs.get target with
  | none =>
    dsimp only
    refine .throw_or fun _ => ?_
    have hadd := (add_allOrNothing target (.file []) false fs).leaves_and
      (leaves_add target (.file []) false fs)
    refine hadd.bind fun node made hmade => ?_
    obtain ⟨⟨raised, hprepared, rfl, rfl⟩, hcarries⟩ := hmade
    have hfind := find_link { raised with disk := (Tree.install (.file []) raised.disk).2 }
      hprepared.parts_ne_nil hprepared.isDirectory (Tree.install (.file []) raised.disk).1
    intro stream after hrun
    obtain ⟨hopened, hlater⟩ := leaves_openNode hfind nofun mode stream after hrun
    exact ⟨hopened, hcarries.trans hlater⟩
  | some node =>
    cases node with
    | directory inode entries => exact .throw _
    | file inode | null inode => exact leaves_openNode (find_of_get hget) nofun mode

end FileSystem

namespace FileCall

/-- A call that succeeds carries every node as it should, and gives new numbers to all others. -/
theorem leaves_run (call : FileCall) (fs : FileSystem) :
    call.run.Leaves fs fun _ after => fs.Carries (call.carry fs) after := by
  cases call with
  | add target tree createParents =>
    exact (FileSystem.leaves_add target tree createParents fs).discard
  | copy source destination recursive =>
    exact FileSystem.leaves_copy source destination recursive fs
  | move source destination => exact FileSystem.leaves_move source destination fs
  | remove target =>
    rintro _ _ ⟨⟩
    exact FileSystem.carries_remove target fs
  | openAt target mode =>
    intro _ after hrun
    have hopen := (FileSystem.leaves_openAt target mode fs).mono fun _ _ h => h.2
    exact hopen.discard _ _ hrun
  | moveMappings sources destination =>
    refine .get ?_
    cases fs.moveMappings sources destination with
    | ok pairs => exact .pure (.refl fs)
    | error error => exact .throw error

end FileCall

end MemShell
