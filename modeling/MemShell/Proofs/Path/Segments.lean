import MemShell.Path.Basic

/-!
# Segments of paths

Cutting at a separator undoes joining with it, and the other way round. From this follows where a
path leads that is written relative to another one: its segments are walked from the names of the
other.
-/

namespace MemShell

namespace Text

variable (separator : Char)

/-- A separator at the start cuts an empty piece off. -/
theorem splitOn_cons (rest : Text) :
    splitOn separator (separator :: rest) = [] :: splitOn separator rest := by
  rw [splitOn, if_pos rfl]

/-- A text is cut at every separator in it. -/
theorem splitOn_append (front back : Text) :
    splitOn separator (front ++ separator :: back) =
      splitOn separator front ++ splitOn separator back := by
  induction front with
  | nil => simp [splitOn]
  | cons c front ih =>
    rw [List.cons_append, splitOn, splitOn]
    by_cases hc : c = separator
    · rw [if_pos hc, if_pos hc, ih, List.cons_append]
    · rw [if_neg hc, if_neg hc, ih]
      cases hfront : splitOn separator front with
      | nil => exact absurd hfront (splitOn_ne_nil separator front)
      | cons piece pieces => rfl

variable {separator}

/-- A text without the separator is one piece. -/
theorem splitOn_of_not_mem {text : Text} (h : separator ∉ text) :
    splitOn separator text = [text] := by
  induction text with
  | nil => rfl
  | cons c text ih =>
    rw [List.mem_cons, not_or] at h
    rw [splitOn, if_neg (Ne.symm h.1), ih h.2]

/-- Pieces are joined one after the other. -/
theorem join_cons {separator : Text} (piece : Text) {pieces : List Text} (h : pieces ≠ []) :
    join separator (piece :: pieces) = piece ++ separator ++ join separator pieces := by
  cases pieces with
  | nil => exact absurd rfl h
  | cons next pieces => rfl

/-- Rows of pieces are joined one after the other. -/
theorem join_append {separator : Text} {front back : List Text} (hfront : front ≠ [])
    (hback : back ≠ []) :
    join separator (front ++ back) = join separator front ++ separator ++ join separator back := by
  induction front with
  | nil => exact absurd rfl hfront
  | cons piece front ih =>
    by_cases h : front = []
    · rw [h, List.singleton_append, join_cons piece hback, join]
    · rw [List.cons_append, join_cons piece (List.append_ne_nil_of_left_ne_nil h back), ih h,
        join_cons piece h]
      simp only [List.append_assoc]

/-- Joining the pieces of a text gives the text back. -/
theorem join_splitOn (separator : Char) (text : Text) :
    join [separator] (splitOn separator text) = text := by
  induction text with
  | nil => rfl
  | cons c text ih =>
    rw [splitOn]
    split
    · next hc => rw [join_cons _ (splitOn_ne_nil separator text), ih, hc]; rfl
    · cases htext : splitOn separator text with
      | nil => exact absurd htext (splitOn_ne_nil separator text)
      | cons piece pieces =>
        rw [htext] at ih
        cases pieces with
        | nil => rw [join] at ih ⊢; rw [ih]
        | cons next pieces => rw [join, List.append_assoc] at ih ⊢; rw [List.cons_append, ih]

/-- Cutting joined pieces gives the cuts of the pieces one after the other. -/
theorem splitOn_join_eq_flatMap {pieces : List Text} (hne : pieces ≠ []) :
    splitOn separator (join [separator] pieces) = pieces.flatMap (splitOn separator) := by
  induction pieces with
  | nil => exact absurd rfl hne
  | cons piece pieces ih =>
    by_cases hp : pieces = []
    · subst hp
      rw [join, List.flatMap_singleton]
    · rw [join_cons _ hp, List.append_assoc, List.singleton_append, splitOn_append, ih hp,
        List.flatMap_cons]

/-- Cutting joined pieces without separators gives the pieces back. -/
theorem splitOn_join {pieces : List Text} (hne : pieces ≠ [])
    (h : ∀ piece ∈ pieces, separator ∉ piece) :
    splitOn separator (join [separator] pieces) = pieces := by
  have hcut : pieces.map (splitOn separator) = pieces.map fun piece => [piece] :=
    List.map_congr_left fun piece hpiece => splitOn_of_not_mem (h piece hpiece)
  rw [splitOn_join_eq_flatMap hne, List.flatMap_def, hcut, ← List.flatMap_def,
    List.flatMap_singleton']

/-- The last piece of a text is empty if the text is empty or ends with the separator. -/
theorem getLast?_splitOn {text : Text} :
    (splitOn separator text).getLast? = some [] ↔ text = [] ∨ text.getLast? = some separator := by
  rcases List.eq_nil_or_concat text with rfl | ⟨front, c, rfl⟩
  · simp [splitOn]
  · rw [List.concat_eq_append]
    have hlast : (splitOn separator (front ++ [c])).getLast? = some [] ↔ c = separator := by
      constructor
      · intro h
        obtain ⟨pieces, hpieces⟩ := List.getLast?_eq_some_iff.1 h
        have hjoin := join_splitOn separator (front ++ [c])
        rw [hpieces] at hjoin
        by_cases hp : pieces = []
        · simp [hp, join] at hjoin
        · rw [join_append hp (List.cons_ne_nil [] []), join, List.append_nil] at hjoin
          exact (List.singleton_inj.1 (List.append_inj_right' hjoin rfl)).symm
      · rintro rfl
        rw [splitOn_append]
        simp [splitOn]
    rw [hlast]
    simp

/-- A text starts with the separator if an empty piece comes first and is not the only one. -/
theorem head?_eq_some_iff_splitOn {text : Text} :
    text.head? = some separator ↔
      (splitOn separator text).head? = some [] ∧ 1 < (splitOn separator text).length := by
  constructor
  · intro h
    obtain ⟨rest, rfl⟩ := List.head?_eq_some_iff.1 h
    rw [splitOn_cons, List.head?_cons, List.length_cons]
    exact ⟨rfl, Nat.succ_lt_succ (List.length_pos_iff.2 (splitOn_ne_nil separator rest))⟩
  · rintro ⟨hfirst, hmore⟩
    obtain ⟨pieces, hsplit⟩ := List.head?_eq_some_iff.1 hfirst
    have hpieces : pieces ≠ [] := by
      rintro rfl
      simp [hsplit] at hmore
    rw [← join_splitOn separator text, hsplit, join_cons [] hpieces]
    rfl

end Text

namespace Path

/-- Paths with the same names that are both directories or both not are the same. -/
theorem eq_of_parts {p q : Path} (hparts : p.parts = q.parts)
    (hflag : p.isDirectory = true ↔ q.isDirectory = true) : p = q := by
  obtain ⟨parts, isDirectory, _, _⟩ := p
  obtain ⟨others, flag, _, _⟩ := q
  obtain rfl : parts = others := hparts
  obtain rfl : isDirectory = flag := Bool.eq_iff_iff.2 hflag
  rfl

/-- A name leads one step down. -/
theorem step_of_valid {name : Text} (h : ValidName name) (walked : List Text) :
    step walked name = walked ++ [name] := by
  obtain ⟨hne, hdot, hdots, -⟩ := h
  simp [step, hne, hdot, hdots]

/-- Names lead down one after the other. -/
theorem foldl_step_of_valid {names : List Text} (h : ∀ name ∈ names, ValidName name)
    (walked : List Text) : names.foldl step walked = walked ++ names := by
  induction names generalizing walked with
  | nil => simp
  | cons name names ih =>
    rw [List.forall_mem_cons] at h
    rw [List.foldl_cons, step_of_valid h.1, ih h.2]
    simp

/-- The names of a path written out lead to the path. -/
theorem resolve_toText (p : Path) : resolve (Text.splitOn '/' p.toText) = p.parts := by
  have hslash : Text.splitOn '/' p.toText = [] :: Text.splitOn '/' (Text.join ['/'] p.parts) :=
    Text.splitOn_cons '/' _
  have hfirst : step [] [] = [] := rfl
  rw [hslash, resolve, List.foldl_cons, hfirst]
  by_cases hp : p.parts = []
  · rw [hp]
    rfl
  · rw [Text.splitOn_join hp fun part hpart => (p.valid part hpart).2.2.2,
      foldl_step_of_valid p.valid, List.nil_append]

/-- A path written out is read as a path with the same names. -/
theorem parts_ofText_toText (p : Path) : (ofText p.toText).parts = p.parts := resolve_toText p

/-- What stands behind a slash is walked from where the text before it leads to. -/
theorem parts_ofText_append (front back : Text) : (ofText (front ++ '/' :: back)).parts =
    (Text.splitOn '/' back).foldl step (ofText front).parts := by
  change resolve (Text.splitOn '/' (front ++ '/' :: back)) = _
  rw [Text.splitOn_append, resolve, List.foldl_append]
  rfl

/-- A text is read as a directory if it leads to the root or ends with a slash. -/
theorem isDirectory_ofText (text : Text) : (ofText text).isDirectory = true ↔
    (ofText text).parts = [] ∨ text.getLast? = some '/' := by
  simp [ofText, List.isEmpty_iff]

/-- Behind a slash a text ends with a slash if nothing follows or what follows ends with one. -/
theorem getLast?_append_slash {front back : Text} :
    (front ++ '/' :: back).getLast? = some '/' ↔ back = [] ∨ back.getLast? = some '/' := by
  cases back with
  | nil => simp
  | cons c back => simp [List.getLast?_append]

/-- A text below a path is read behind the path and a slash. -/
theorem child_eq (p : Path) (text : Text) : p.child text = ofText (p.toText ++ '/' :: text) :=
  congrArg ofText (List.append_assoc p.toText ['/'] text)

/-- A text below a path is walked from the names of the path. -/
theorem parts_child (p : Path) (text : Text) :
    (p.child text).parts = (Text.splitOn '/' text).foldl step p.parts := by
  rw [child_eq, parts_ofText_append, parts_ofText_toText]

/-- A single segment below a path is one step from it. -/
theorem parts_child_of_not_mem {segment : Text} (h : '/' ∉ segment) (p : Path) :
    (p.child segment).parts = step p.parts segment := by
  rw [parts_child, Text.splitOn_of_not_mem h]
  rfl

/-- A name below a path is one step down. -/
theorem parts_child_of_valid {name : Text} (h : ValidName name) (p : Path) :
    (p.child name).parts = p.parts ++ [name] := by
  rw [parts_child_of_not_mem h.2.2.2, step_of_valid h]

/-- The place from which a text is walked by someone at a directory. -/
def startOf (cwd : Path) (text : Text) : List Text :=
  if text.head? = some '/' then [] else cwd.parts

/-- A text is walked from the root or from the names of the directory it is read at. -/
theorem parts_interpret (cwd : Path) (text : Text) :
    (interpret cwd.toText [text]).parts =
      (Text.splitOn '/' text).foldl step (startOf cwd text) := by
  rw [interpret, startOf]
  split
  · rfl
  · exact parts_child cwd text

/-- A text is read as a directory if it leads to the root or its last segment is empty. -/
theorem isDirectory_interpret (cwd : Path) (text : Text) :
    (interpret cwd.toText [text]).isDirectory = true ↔
      (interpret cwd.toText [text]).parts = [] ∨ (Text.splitOn '/' text).getLast? = some [] := by
  rw [Text.getLast?_splitOn, interpret]
  split
  · next h =>
    have htext : text ≠ [] := fun hnil => by simp [hnil] at h
    rw [or_iff_right htext]
    exact isDirectory_ofText text
  · change (cwd.child text).isDirectory = true ↔ (cwd.child text).parts = [] ∨ _
    rw [child_eq, isDirectory_ofText, getLast?_append_slash]

/-- The parent of a path has all names but the last. -/
theorem parts_parent (p : Path) : p.parent.parts = p.parts.dropLast :=
  List.dropLast_eq_take.symm

end Path

end MemShell
