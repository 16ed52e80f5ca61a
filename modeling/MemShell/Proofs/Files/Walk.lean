import MemShell.Files.Visit
import MemShell.Proofs.Files.Stat
import MemShell.Proofs.Json.Sorting

/-!
# Walks

A walk over a tree goes down from a path. In a well-formed tree it meets exactly the nodes that
names lead to, each at the path that these names lead to, in the order of the paths. So a walk over
a file system from its root and the lookup of paths agree about what is where.
-/

namespace MemShell

namespace Path

/-- A path lies down a list of names from another one; below it, it has no slash at its end. -/
structure Descends (path : Path) (names : List Text) (below : Path) : Prop where
  /-- The names follow those of the path. -/
  parts_eq : below.parts = path.parts ++ names
  /-- Only the path itself may have a slash at its end. -/
  isDirectory_eq : below.isDirectory = (path.isDirectory && names.isEmpty)

/-- A path with a name below it has no slash at its end. -/
theorem isDirectory_child_of_valid {name : Text} (h : ValidName name) (path : Path) :
    (path.child name).isDirectory = false := by
  have htext : Text.join "/" [path.toText, name] = path.toText ++ '/' :: name :=
    List.append_assoc path.toText ['/'] name
  have hlast : (path.toText ++ '/' :: name).getLast? ≠ some '/' := by
    have hname : (path.toText ++ '/' :: name).getLast? = some (name.getLast h.1) := by
      simp [List.getLast?_append, List.getLast?_cons, List.getLast?_eq_some_getLast h.1]
    rw [hname, ne_eq, Option.some.injEq]
    exact fun heq => h.2.2.2 (heq ▸ List.getLast_mem h.1)
  have hparts : (path.child name).parts ≠ [] := by simp [parts_child_of_valid h]
  rw [child, ofFragments, htext] at hparts ⊢
  exact Bool.or_eq_false_iff.2
    ⟨by simpa [ofText, List.isEmpty_iff] using hparts, by simpa using hlast⟩

/-- No names lead down to the path itself. -/
theorem descends_nil {path below : Path} : path.Descends [] below ↔ below = path := by
  constructor
  · rintro ⟨hparts, hflag⟩
    cases below
    cases path
    simp_all
  · rintro rfl
    exact ⟨(List.append_nil _).symm, (Bool.and_true _).symm⟩

/-- The first of several names leads one step down. -/
theorem descends_cons {path below : Path} {name : Text} (h : ValidName name) {names : List Text} :
    path.Descends (name :: names) below ↔ (path.child name).Descends names below := by
  have hparts : path.parts ++ name :: names = (path.child name).parts ++ names := by
    rw [parts_child_of_valid h, List.append_assoc, List.singleton_append]
  have hflag : (path.isDirectory && (name :: names).isEmpty) =
      ((path.child name).isDirectory && names.isEmpty) := by
    rw [isDirectory_child_of_valid h, List.isEmpty_cons, Bool.and_false, Bool.false_and]
  exact ⟨fun ⟨hbelow, hslash⟩ => ⟨hbelow.trans hparts, hslash.trans hflag⟩,
    fun ⟨hbelow, hslash⟩ => ⟨hbelow.trans hparts.symm, hslash.trans hflag.symm⟩⟩

/-- Two names in a directory are in order as the paths that they make. -/
theorem concat_lt_concat_iff {names : List Text} {name other : Text} :
    names ++ [name] < names ++ [other] ↔ name < other := by
  induction names with
  | nil => simp [List.cons_lt_cons_iff]
  | cons first names ih => simpa [List.cons_lt_cons_iff] using ih

/-- What is below a list of names comes after it. -/
theorem lt_append_cons (names : List Text) (name : Text) (below : List Text) :
    names < names ++ name :: below := by
  have hlt : names ++ [] < names ++ name :: below := List.append_left_lt (List.nil_lt_cons _ _)
  rwa [List.append_nil] at hlt

/-- A path comes before every path below it. -/
theorem lt_of_isAncestorOf {p q : Path} (h : p.isAncestorOf q = true) : p < q := by
  rw [isAncestorOf, Bool.and_eq_true, decide_eq_true_eq, List.isPrefixOf_iff_prefix] at h
  obtain ⟨hlength, rest, hrest⟩ := h
  change p.parts < q.parts
  cases rest with
  | nil => simp [← hrest] at hlength
  | cons name below =>
    rw [← hrest]
    exact lt_append_cons p.parts name below

end Path

namespace Node

variable {node : Node}

/-- A visit calls for the entries of a directory one by one. -/
theorem visitEntries_eq (path : Path) (entries : Entries) :
    visitEntries path entries =
      entries.map fun entry => (entry.1, entry.2.visit (path.child entry.1)) := by
  induction entries with
  | nil => rw [visitEntries]; rfl
  | cons entry entries ih => rw [visitEntries, ih]; rfl

/-- A visit of a directory visits its entries in the order of their names. -/
theorem visit_directory (path : Path) (inode : Inode) (entries : Entries) :
    (directory inode entries).visit path =
      [⟨.before, path, directory inode entries⟩, ⟨.at, path, directory inode entries⟩] ++
        (Json.sortByName entries).flatMap (fun entry => entry.2.visit (path.child entry.1)) ++
        [⟨.after, path, directory inode entries⟩] := by
  have hentries := Json.sortByName_map
    (fun entry : Text × Node => entry.2.visit (path.child entry.1)) entries
  rw [visit, visitEntries_eq, hentries, List.flatMap_map]

/-- A walk over a directory meets it, and then what its entries hold in the order of their names. -/
theorem walk_directory (path : Path) (inode : Inode) (entries : Entries) :
    (directory inode entries).walk path =
      (path, directory inode entries) ::
        (Json.sortByName entries).flatMap fun entry => entry.2.walk (path.child entry.1) := by
  rw [walk, visit_directory]
  simp [List.filter_append, List.filter_flatMap, List.map_flatMap, walk]

/-- A walk over a file meets it alone. -/
theorem walk_file (path : Path) (inode : Inode) :
    (file inode).walk path = [(path, file inode)] := by
  rw [walk, visit]
  rfl

/-- A walk over a null file meets it alone. -/
theorem walk_null (path : Path) (inode : Inode) :
    (null inode).walk path = [(path, null inode)] := by
  rw [walk, visit]
  rfl

/-- A walk over a well-formed tree meets exactly the nodes that names lead to. -/
theorem WellFormed.mem_walk_iff (h : node.WellFormed) {path below : Path} {reached : Node} :
    (below, reached) ∈ node.walk path ↔
      ∃ names, path.Descends names below ∧ node.find names = some reached := by
  have halone {alone : Node} (hfind : ∀ names, alone.find names = some reached →
      names = [] ∧ alone = reached) (path : Path) :
      (below, reached) ∈ [(path, alone)] ↔
        ∃ names, path.Descends names below ∧ alone.find names = some reached := by
    rw [List.mem_singleton, Prod.mk.injEq]
    constructor
    · rintro ⟨rfl, rfl⟩
      exact ⟨[], Path.descends_nil.2 rfl, rfl⟩
    · rintro ⟨names, hbelow, hnames⟩
      obtain ⟨rfl, rfl⟩ := hfind names hnames
      exact ⟨Path.descends_nil.1 hbelow, rfl⟩
  induction h generalizing path with
  | @directory inode entries nodup valid inner ih =>
    rw [walk_directory, List.mem_cons, List.mem_flatMap, Prod.mk.injEq]
    constructor
    · rintro (⟨rfl, rfl⟩ | ⟨⟨name, child⟩, hentry, hbelow⟩)
      · exact ⟨[], Path.descends_nil.2 rfl, rfl⟩
      · rw [Json.mem_sortByName] at hentry
        obtain ⟨names, hdescends, hfind⟩ := (ih _ hentry).1 hbelow
        refine ⟨name :: names, (Path.descends_cons (valid _ hentry)).2 hdescends, ?_⟩
        rw [Node.find, (Assoc.lookup_eq_some_iff nodup).2 hentry]
        exact hfind
    · rintro ⟨_ | ⟨name, names⟩, hdescends, hfind⟩
      · exact .inl ⟨Path.descends_nil.1 hdescends, (Option.some.inj hfind).symm⟩
      · rw [Node.find] at hfind
        cases hchild : entries.lookup name with
        | none => simp [hchild] at hfind
        | some child =>
          rw [hchild] at hfind
          have hentry := (Assoc.lookup_eq_some_iff nodup).1 hchild
          refine .inr ⟨(name, child), Json.mem_sortByName.2 hentry, ?_⟩
          refine (ih _ hentry).2 ⟨names, ?_, hfind⟩
          exact (Path.descends_cons (valid _ hentry)).1 hdescends
  | file inode =>
    rw [walk_file]
    refine halone (fun names hnames => ?_) path
    cases names <;> simp_all [Node.find]
  | null inode =>
    rw [walk_null]
    refine halone (fun names hnames => ?_) path
    cases names <;> simp_all [Node.find]

/-- A walk over a well-formed tree meets the nodes in the order of their paths. -/
theorem WellFormed.pairwise_walk (h : node.WellFormed) (path : Path) :
    (node.walk path).Pairwise fun earlier later => earlier.1 < later.1 := by
  induction h generalizing path with
  | @directory inode entries nodup valid inner ih =>
    -- what is met below an entry has the name of the entry in its path, so the names decide
    have hbelow {entry : Text × Node} (hentry : entry ∈ entries) {met : Path × Node}
        (hmet : met ∈ entry.2.walk (path.child entry.1)) :
        ∃ names, met.1.parts = path.parts ++ entry.1 :: names := by
      obtain ⟨names, hdescends, -⟩ := (inner _ hentry).mem_walk_iff.1 hmet
      exact ⟨names, ((Path.descends_cons (valid _ hentry)).2 hdescends).parts_eq⟩
    rw [walk_directory, List.pairwise_cons, List.pairwise_flatMap]
    refine ⟨fun met hmet => ?_, fun entry hentry => ?_, ?_⟩
    · obtain ⟨entry, hentry, hmet⟩ := List.mem_flatMap.1 hmet
      obtain ⟨names, hparts⟩ := hbelow (Json.mem_sortByName.1 hentry) hmet
      have hlt := Path.lt_append_cons path.parts entry.1 names
      rwa [← hparts] at hlt
    · exact ih _ (Json.mem_sortByName.1 hentry) _
    · refine (Json.pairwise_sortByName nodup).imp_of_mem fun {a b} ha hb hlt => ?_
      intro earlier hearlier later hlater
      obtain ⟨names, hnames⟩ := hbelow (Json.mem_sortByName.1 ha) hearlier
      obtain ⟨others, hothers⟩ := hbelow (Json.mem_sortByName.1 hb) hlater
      have hparts : path.parts ++ a.1 :: names < path.parts ++ b.1 :: others :=
        List.append_left_lt (List.cons_lt_cons_iff.2 (.inl hlt))
      rwa [← hnames, ← hothers] at hparts
  | file inode => rw [walk_file]; exact List.pairwise_singleton _ _
  | null inode => rw [walk_null]; exact List.pairwise_singleton _ _

end Node

namespace FileSystem

variable {fs : FileSystem}

/-- A walk from the root meets every node once, at the path that leads to it, a directory before
what is below it, and the entries of a directory in the order of their names. -/
structure WalksAll (fs : FileSystem) : Prop where
  /-- What is met is what is found at the paths without a slash at their end. -/
  mem_iff : ∀ path node, (path, node) ∈ fs.root.walk .root ↔
    fs.get path = some node ∧ (path.isDirectory = true → path.isRoot = true)
  /-- No node is met twice. -/
  once : ((fs.root.walk .root).map fun met => met.2.inode).Nodup
  /-- Nothing is met after what is below it. -/
  parents_first : (fs.root.walk .root).Pairwise fun earlier later =>
    later.1.isAncestorOf earlier.1 = false
  /-- Names in the same directory are met in increasing order. -/
  siblings_increase : (fs.root.walk .root).Pairwise fun earlier later =>
    ∀ names name other, earlier.1.parts = names ++ [name] → later.1.parts = names ++ [other] →
      name < other

/-- Without a slash at the end a path finds what its names lead to. -/
theorem get_eq_find_iff {path : Path} {node : Node} :
    fs.get path = some node ∧ (path.isDirectory = true → path.isRoot = true) ↔
      path.isDirectory = path.parts.isEmpty ∧ fs.find path.parts = some node := by
  by_cases hroot : path.parts = []
  · have hfind : fs.find path.parts = some fs.root := by rw [hroot]; rfl
    have hget : fs.get path = some fs.root := get_eq_directory_iff.2 hfind
    rw [hget, hfind, Path.isRoot, path.root_isDirectory hroot, hroot]
    simp
  · cases hslash : path.isDirectory with
    | true => simp [Path.isRoot, hroot]
    | false =>
      have hget : fs.get path = fs.find path.parts := by
        rw [get, hslash]
        cases fs.find path.parts <;> rfl
      simp [hget, hroot]

/-- A walk over a well-formed file system meets what is found at the paths without a slash at their
end. -/
theorem WellFormed.mem_walk_root_iff (h : fs.WellFormed) (path : Path) (node : Node) :
    (path, node) ∈ fs.root.walk .root ↔
      fs.get path = some node ∧ (path.isDirectory = true → path.isRoot = true) := by
  rw [Node.WellFormed.mem_walk_iff h, get_eq_find_iff]
  constructor
  · rintro ⟨names, ⟨hparts, hslash⟩, hfind⟩
    obtain rfl : path.parts = names := hparts
    exact ⟨hslash, hfind⟩
  · rintro ⟨hslash, hfind⟩
    exact ⟨path.parts, ⟨rfl, hslash⟩, hfind⟩

/-- A walk over a well-formed file system with distinct numbers agrees with the lookup of paths. -/
theorem WellFormed.walksAll (h : fs.WellFormed) (hnumbered : fs.Numbered) : fs.WalksAll := by
  have hstat {met : Path × Node} (hmet : met ∈ fs.root.walk .root) :
      fs.stat met.1.parts = some (met.2.kind, met.2.inode) := by
    obtain ⟨-, hfind⟩ := get_eq_find_iff.1 ((h.mem_walk_root_iff met.1 met.2).1 hmet)
    exact Option.map_eq_some_iff.2 ⟨_, hfind, rfl⟩
  have hpairwise := Node.WellFormed.pairwise_walk h Path.root
  refine ⟨h.mem_walk_root_iff, ?_, hpairwise.imp fun {a b} hlt => ?_,
    hpairwise.imp fun {a b} hlt names name other ha hb => ?_⟩
  · rw [List.Nodup, List.pairwise_map]
    refine hpairwise.imp_of_mem fun {a b} ha hb hlt hsame => ?_
    have hb' := hstat hb
    rw [← hsame] at hb'
    have hparts := hnumbered.eq_of_inode (hstat ha) hb'
    have hbefore : a.1.parts < b.1.parts := hlt
    rw [hparts] at hbefore
    exact List.lt_irrefl _ hbefore
  · rw [Bool.eq_false_iff]
    exact fun hancestor => List.lt_asymm hlt (Path.lt_of_isAncestorOf hancestor)
  · have hnames : names ++ [name] < names ++ [other] := ha ▸ hb ▸ hlt
    exact Path.concat_lt_concat_iff.1 hnames

end FileSystem

end MemShell
