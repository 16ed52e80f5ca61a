import MemShell.Proofs.Path.Segments
import Mathlib.Data.List.Chain

/-!
# Ancestry

What lies above a path can be asked for in several ways: whether the names of one path begin those
of another, which paths lie above a path, what is reached by going down from a path, and what lies
between two paths. Main statement: all of them agree, whether or not the paths are written as
directories.
-/

namespace MemShell

namespace Path

variable {p a b : Path}

/-- The root is the path without names. -/
theorem isRoot_iff : p.isRoot = true ↔ p.parts = [] := List.isEmpty_iff

/-! ## Beginnings of paths -/

/-- The path of the first names of a path has these names. -/
theorem parts_upTo (p : Path) (depth : Nat) : (p.upTo depth).parts = p.parts.take depth := rfl

/-- It is a directory path only if it is the root. -/
theorem isDirectory_upTo (p : Path) (depth : Nat) :
    (p.upTo depth).isDirectory = true ↔ (p.upTo depth).parts = [] := List.isEmpty_iff

/-- A beginning of a beginning is a beginning. -/
theorem upTo_upTo (p : Path) {depth least : Nat} (h : least ≤ depth) :
    (p.upTo depth).upTo least = p.upTo least := by
  refine eq_of_parts ?_ ?_
  · rw [parts_upTo, parts_upTo, parts_upTo, List.take_take, Nat.min_eq_left h]
  · rw [isDirectory_upTo, isDirectory_upTo, parts_upTo, parts_upTo, parts_upTo, List.take_take,
      Nat.min_eq_left h]

/-- The beginning without names is the root. -/
theorem upTo_zero (p : Path) : p.upTo 0 = root := rfl

/-- A path that is a directory path only as the root is read back from its text. -/
theorem ofText_toText (h : p.isDirectory = true ↔ p.parts = []) : ofText p.toText = p := by
  refine eq_of_parts (parts_ofText_toText p) ?_
  rw [isDirectory_ofText, parts_ofText_toText, h, or_iff_left_iff_imp]
  intro hslash
  by_contra hp
  have hlast : (Text.splitOn '/' p.toText).getLast? = some [] :=
    Text.getLast?_splitOn.2 (.inr hslash)
  have hsplit : Text.splitOn '/' p.toText = [] :: p.parts := by
    refine (Text.splitOn_cons '/' _).trans (congrArg _ ?_)
    exact Text.splitOn_join hp fun part hpart => (p.valid part hpart).2.2.2
  rw [hsplit, List.getLast?_cons_of_ne_nil hp] at hlast
  exact (p.valid [] (List.mem_of_getLast? hlast)).1 rfl

/-! ## What lies above a path -/

/-- The paths above a path are those of its first names. -/
theorem mem_ancestors_iff : a ∈ p.ancestors ↔ ∃ depth < p.parts.length, a = p.upTo depth := by
  simp [ancestors, eq_comm]

/-- From the root on they are as many as the path has names. -/
theorem reverse_ancestors (p : Path) :
    p.ancestors.reverse = (List.range p.parts.length).map p.upTo := by
  rw [ancestors, ← List.map_reverse, List.reverse_reverse]

/-- A path below the root lies below its parent and what is above that. -/
theorem ancestors_eq_cons (h : p.parts ≠ []) : p.ancestors = p.parent :: p.parent.ancestors := by
  obtain ⟨n, hn⟩ := Nat.exists_eq_succ_of_ne_zero (mt List.length_eq_zero_iff.1 h)
  have hparent : p.parent = p.upTo n := by rw [parent, hn, Nat.succ_sub_one]
  have hlength : (p.upTo n).parts.length = n := by
    rw [parts_upTo, List.length_take, hn, Nat.min_eq_left (Nat.le_succ n)]
  have habove : (p.upTo n).ancestors = (List.range n).reverse.map p.upTo := by
    rw [ancestors, hlength]
    refine List.map_congr_left fun depth hdepth => upTo_upTo p ?_
    exact Nat.le_of_lt (List.mem_range.1 (List.mem_reverse.1 hdepth))
  rw [hparent, habove, ancestors, hn, List.range_succ, List.reverse_concat, List.map_cons]

/-- What lies above a path is as much as the path has names. -/
theorem length_ancestors (p : Path) : p.ancestors.length = p.parts.length := by
  simp [ancestors]

/-- The first ones above a path end with the beginning that has so many names less. -/
theorem getLast?_take_ancestors {count : Nat} (hpos : 0 < count) (hle : count ≤ p.parts.length) :
    (p.ancestors.take count).getLast? = some (p.upTo (p.parts.length - count)) := by
  have hlt : count - 1 < p.ancestors.length := by rw [length_ancestors]; omega
  have hdepth : p.parts.length - 1 - (count - 1) = p.parts.length - count := by omega
  rw [List.getLast?_take, if_neg hpos.ne', List.getElem?_eq_getElem hlt, Option.some_or]
  simp [ancestors, hdepth]

/-- Nothing lies above the root. -/
theorem ancestors_of_root (h : p.parts = []) : p.ancestors = [] := by
  rw [← List.length_eq_zero_iff, length_ancestors, h, List.length_nil]

/-- The root lies above every other path, and nothing is above it. -/
theorem getLast?_ancestors (h : p.parts ≠ []) : p.ancestors.getLast? = some root := by
  have hall : p.ancestors.take p.parts.length = p.ancestors :=
    List.take_of_length_le (length_ancestors p).le
  rw [← hall, getLast?_take_ancestors (List.length_pos_iff.2 h) (Nat.le_refl _), Nat.sub_self,
    upTo_zero]

/-- From a path on, each is followed by its parent. -/
theorem isChain_ancestors (p : Path) :
    (p :: p.ancestors).IsChain fun below above => above = below.parent := by
  induction hn : p.parts.length generalizing p with
  | zero =>
    rw [ancestors_of_root (List.length_eq_zero_iff.1 hn)]
    exact .singleton p
  | succ n ih =>
    have hp : p.parts ≠ [] := List.ne_nil_of_length_eq_add_one hn
    have hparent : p.parent.parts.length = n := by
      rw [parts_parent, List.length_dropLast, hn, Nat.add_sub_cancel]
    rw [ancestors_eq_cons hp]
    exact .cons_cons rfl (ih p.parent hparent)

/-! ## Strict ancestors -/

/-- A path lies above another if its names are a proper beginning of the names of the other. -/
theorem isAncestorOf_iff :
    a.isAncestorOf p = true ↔ a.parts <+: p.parts ∧ a.parts.length < p.parts.length := by
  rw [isAncestorOf, Bool.and_eq_true, decide_eq_true_iff, List.isPrefixOf_iff_prefix, and_comm]

/-- No path lies above itself. -/
theorem not_isAncestorOf_self (p : Path) : p.isAncestorOf p = false := by
  simp [isAncestorOf]

/-- What lies above something above a path lies above the path. -/
theorem isAncestorOf_trans (hab : a.isAncestorOf b = true) (hbp : b.isAncestorOf p = true) :
    a.isAncestorOf p = true := by
  rw [isAncestorOf_iff] at hab hbp ⊢
  exact ⟨hab.1.trans hbp.1, hab.2.trans hbp.2⟩

/-- A path lies above another if one of those above the other has its names. -/
theorem isAncestorOf_iff_exists_mem :
    a.isAncestorOf p = true ↔ ∃ above ∈ p.ancestors, above.parts = a.parts := by
  rw [isAncestorOf_iff]
  constructor
  · rintro ⟨hfront, hlength⟩
    refine ⟨p.upTo a.parts.length, mem_ancestors_iff.2 ⟨_, hlength, rfl⟩, ?_⟩
    exact (List.prefix_iff_eq_take.1 hfront).symm
  · rintro ⟨above, hmem, habove⟩
    obtain ⟨depth, hdepth, rfl⟩ := mem_ancestors_iff.1 hmem
    rw [← habove, parts_upTo, List.length_take]
    exact ⟨List.take_prefix depth p.parts, (Nat.min_le_left _ _).trans_lt hdepth⟩

/-- Names below a path are appended to its names. -/
theorem parts_child_join {names : List Text} (hne : names ≠ [])
    (hvalid : ∀ name ∈ names, ValidName name) (a : Path) :
    (a.child (Text.join "/" names)).parts = a.parts ++ names := by
  have hsplit : Text.splitOn '/' (Text.join "/" names) = names :=
    Text.splitOn_join hne fun name hname => (hvalid name hname).2.2.2
  rw [parts_child, hsplit, foldl_step_of_valid hvalid]

/-- A path lies above another if names lead down from it to the other. -/
theorem isAncestorOf_iff_exists_child : a.isAncestorOf p = true ↔ ∃ names, names ≠ [] ∧
    (∀ name ∈ names, ValidName name) ∧ (a.child (Text.join "/" names)).parts = p.parts := by
  rw [isAncestorOf_iff]
  constructor
  · rintro ⟨⟨names, hnames⟩, hlength⟩
    have hne : names ≠ [] := by
      rintro rfl
      rw [← hnames, List.append_nil] at hlength
      exact Nat.lt_irrefl _ hlength
    have hvalid : ∀ name ∈ names, ValidName name := fun name hname =>
      p.valid name (hnames ▸ List.mem_append_right a.parts hname)
    exact ⟨names, hne, hvalid, (parts_child_join hne hvalid a).trans hnames⟩
  · rintro ⟨names, hne, hvalid, hchild⟩
    rw [← hchild, parts_child_join hne hvalid, List.length_append]
    exact ⟨List.prefix_append _ _, Nat.lt_add_of_pos_right (List.length_pos_iff.2 hne)⟩

/-! ## What lies between two paths -/

/-- The first ones above a path, the last of which has the names of another path. -/
def EndsAt (p a : Path) (above : List Path) : Prop :=
  above <+: p.ancestors ∧ ∃ last, above.getLast? = some last ∧ last.parts = a.parts

/-- Their number is the difference of the numbers of names. -/
theorem EndsAt.length_eq {above : List Path} (h : EndsAt p a above) :
    above.length = p.parts.length - a.parts.length := by
  obtain ⟨hfront, last, hlast, hparts⟩ := h
  have hpos : 0 < above.length := List.length_pos_iff.2 fun hnil => by simp [hnil] at hlast
  have hle : above.length ≤ p.parts.length := length_ancestors p ▸ hfront.length_le
  rw [List.prefix_iff_eq_take.1 hfront, getLast?_take_ancestors hpos hle] at hlast
  obtain rfl := Option.some.inj hlast
  rw [← hparts, parts_upTo, List.length_take]
  omega

/-- Between a path and one above it lie as many of those above the path as it has more names. -/
theorem endsAt_take (h : a.isAncestorOf p = true) :
    EndsAt p a (p.ancestors.take (p.parts.length - a.parts.length)) := by
  obtain ⟨hfront, hlength⟩ := isAncestorOf_iff.1 h
  refine ⟨List.take_prefix _ _, p.upTo a.parts.length, ?_, ?_⟩
  · rw [getLast?_take_ancestors (Nat.sub_pos_of_lt hlength) (Nat.sub_le _ _),
      Nat.sub_sub_self hlength.le]
  · exact (List.prefix_iff_eq_take.1 hfront).symm

/-- Nothing lies between a path and itself. -/
theorem ancestorsUntil_of_eq (h : a.parts = p.parts) : p.ancestorsUntil a = .ok [] := if_pos h

/-- Up to a path above it, a path has the first of those above it. -/
theorem ancestorsUntil_of_isAncestorOf (h : a.isAncestorOf p = true) :
    p.ancestorsUntil a = .ok (p.ancestors.take (p.parts.length - a.parts.length)) := by
  have hne : a.parts ≠ p.parts := fun heq =>
    (isAncestorOf_iff.1 h).2.ne (congrArg List.length heq)
  rw [ancestorsUntil, if_neg hne, if_pos h]

/-- What is neither the path nor above it is refused. -/
theorem ancestorsUntil_eq_error_iff : p.ancestorsUntil a = .error (.notAncestor a p) ↔
    a.parts ≠ p.parts ∧ ¬a.isAncestorOf p = true := by
  rw [ancestorsUntil]
  split
  · next heq => simp [heq]
  · next hne => split <;> simp_all

/-- The questions about what lies above a path agree. No path lies above itself, and what lies above
something above lies above. A path lies above another exactly if one of those above the other has
its names, and exactly if names lead down from it to the other. The paths above a path run from its
parent to the root, each the parent of the one before and read back from its text. What lies between
a path and another is refused exactly if the other is neither the path nor above it; it is nothing
for the path itself, and else the shortest row of those above the path that ends at the other. -/
theorem ancestry_agrees (p a b : Path) :
    (a.isAncestorOf a = false ∧
      (a.isAncestorOf b = true → b.isAncestorOf p = true → a.isAncestorOf p = true)) ∧
    (a.isAncestorOf p = true ↔ ∃ above ∈ p.ancestors, above.parts = a.parts) ∧
    (a.isAncestorOf p = true ↔ ∃ names, names ≠ [] ∧ (∀ name ∈ names, ValidName name) ∧
      (a.child (Text.join "/" names)).parts = p.parts) ∧
    ((p :: p.ancestors).IsChain (fun below above => above = below.parent) ∧
      (p.parts = [] → p.ancestors = []) ∧ (p.parts ≠ [] → p.ancestors.getLast? = some root) ∧
      ∀ above ∈ p.ancestors, ofText above.toText = above) ∧
    (p.ancestorsUntil a = .error (.notAncestor a p) ↔
      a.parts ≠ p.parts ∧ ∀ above ∈ p.ancestors, above.parts ≠ a.parts) ∧
    (a.parts = p.parts → p.ancestorsUntil a = .ok []) ∧
    ∀ above ∈ p.ancestors, above.parts = a.parts → ∃ found, p.ancestorsUntil a = .ok found ∧
      EndsAt p a found ∧ ∀ other, EndsAt p a other → found.length ≤ other.length := by
  refine ⟨⟨not_isAncestorOf_self a, isAncestorOf_trans⟩, isAncestorOf_iff_exists_mem,
    isAncestorOf_iff_exists_child, ⟨isChain_ancestors p, ancestors_of_root, getLast?_ancestors,
    fun above hmem => ?_⟩, ?_, ancestorsUntil_of_eq, fun above hmem habove => ?_⟩
  · obtain ⟨depth, -, rfl⟩ := mem_ancestors_iff.1 hmem
    exact ofText_toText (isDirectory_upTo p depth)
  · rw [ancestorsUntil_eq_error_iff, isAncestorOf_iff_exists_mem]
    simp
  · have h : a.isAncestorOf p = true := isAncestorOf_iff_exists_mem.2 ⟨above, hmem, habove⟩
    refine ⟨_, ancestorsUntil_of_isAncestorOf h, endsAt_take h, fun other hother => ?_⟩
    rw [(endsAt_take h).length_eq, hother.length_eq]

/-- A path that is written as a directory. -/
def deep : Path := ofText ['/', 'x', '/', 'y', '/', 'z', '/']

theorem ancestry_agrees_deep :
    (ofText ['x', '/']).isAncestorOf (ofText ['x', '/', 'y']) = true ∧
      (ofText ['x', '/', 'y']).isAncestorOf deep = true ∧
      (ofText ['x', '/']).isAncestorOf deep = true ∧
      EndsAt deep (ofText ['x', '/']) [ofText ['x', '/', 'y'], ofText ['x']] := by
  have hfirst : (ofText ['x', '/']).isAncestorOf (ofText ['x', '/', 'y']) = true := by decide
  have hsecond : (ofText ['x', '/', 'y']).isAncestorOf deep = true := by decide
  obtain ⟨⟨-, htrans⟩, -, -, -, -, -, huntil⟩ :=
    ancestry_agrees deep (ofText ['x', '/']) (ofText ['x', '/', 'y'])
  obtain ⟨found, hfound, hends, -⟩ := huntil (ofText ['x']) (by decide) (by decide)
  cases hfound
  exact ⟨hfirst, hsecond, htrans hfirst hsecond, hends⟩

end Path

end MemShell
