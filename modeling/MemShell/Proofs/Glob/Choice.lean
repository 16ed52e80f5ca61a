import MemShell.Proofs.Files.WellFormed
import MemShell.Proofs.Glob.Matching
import MemShell.Proofs.Path.Segments
import Mathlib.Data.List.Forall2

/-!
# Choices of names

What marked text with wildcards stands for, said without a search. A choice has one name for each
segment with wildcards; the names are proper names that their segments select, and with the names in
the place of these segments the text leads to a node, every segment being walked from a directory.
Choices unfold along the segments: a plain segment is one step, and a segment with wildcards is one
name and a step down.
-/

namespace MemShell.Glob

variable {fs : FileSystem}

/-- The segments that hold wildcards. -/
def wildSegments (segments : List Text) : List Text := segments.filter Marked.hasWildcard

/-- The segments with names, taken literally, in the place of those that hold wildcards. -/
def fill : List Text → List Text → List Text
  | [], _ => []
  | segment :: rest, [] => segment :: rest
  | segment :: rest, name :: names =>
    if Marked.hasWildcard segment then Marked.escape name :: fill rest names
    else segment :: fill rest (name :: names)

/-- Marked text with names in the place of its segments with wildcards. -/
def rendered (token : Text) (names : List Text) : Text :=
  Text.join ['/'] (fill (Text.splitOn '/' token) names)

/-- Segments lead from a place to a node, and each of them is walked from a directory. -/
def Leads (fs : FileSystem) (place : List Text) : List Text → Prop
  | [] => (fs.find place).isSome
  | segment :: rest => fs.IsDirectory place ∧ Leads fs (Path.step place segment) rest

/-- Names chosen for the wildcards of segments that are walked from a place. -/
structure IsChoice (fs : FileSystem) (place segments names : List Text) : Prop where
  /-- The names are proper names. -/
  valid : ∀ name ∈ names, ValidName name
  /-- There is one name for each segment with wildcards, and that segment selects it. -/
  selected : List.Forall₂ Selects (wildSegments segments) names
  /-- With the names put in, the segments lead to a node. -/
  leads : Leads fs place ((fill segments names).map Marked.unmark)

/-! ## Filling in names -/

/-- Without names nothing is put in. -/
@[simp] theorem fill_nil (segments : List Text) : fill segments [] = segments := by
  cases segments <;> rfl

/-- A plain segment stays. -/
theorem fill_cons_plain {segment : Text} (h : Marked.hasWildcard segment = false)
    (rest names : List Text) : fill (segment :: rest) names = segment :: fill rest names := by
  cases names with
  | nil => rw [fill, fill_nil]
  | cons name names => simp [fill, h]

/-- A segment with wildcards gives way to the first name. -/
theorem fill_cons_wild {segment : Text} (h : Marked.hasWildcard segment = true)
    (rest : List Text) (name : Text) (names : List Text) :
    fill (segment :: rest) (name :: names) = Marked.escape name :: fill rest names := by
  simp [fill, h]

/-- Filling in names keeps the number of segments. -/
@[simp] theorem length_fill (segments names : List Text) :
    (fill segments names).length = segments.length := by
  fun_induction fill segments names <;> simp_all

/-- Filling in names leaves segments where there were some. -/
theorem fill_ne_nil {segments : List Text} (h : segments ≠ []) (names : List Text) :
    fill segments names ≠ [] := by
  rw [← List.length_pos_iff, length_fill]
  exact List.length_pos_iff.2 h

/-- A plain segment is not among those with wildcards. -/
theorem wildSegments_cons_plain {segment : Text} (h : Marked.hasWildcard segment = false)
    (rest : List Text) : wildSegments (segment :: rest) = wildSegments rest :=
  List.filter_cons_of_neg (by simp [h])

/-- A segment with wildcards is the first of its kind. -/
theorem wildSegments_cons_wild {segment : Text} (h : Marked.hasWildcard segment = true)
    (rest : List Text) : wildSegments (segment :: rest) = segment :: wildSegments rest :=
  List.filter_cons_of_pos h

/-- Segments without wildcards have none among them. -/
theorem wildSegments_of_plain {segments : List Text}
    (h : segments.any Marked.hasWildcard = false) : wildSegments segments = [] := by
  rw [wildSegments, List.filter_eq_nil_iff]
  simpa using h

/-- Different names for the same segments give different segments. -/
theorem fill_injective {segments names others : List Text}
    (hnames : (wildSegments segments).length = names.length)
    (hothers : (wildSegments segments).length = others.length)
    (h : fill segments names = fill segments others) : names = others := by
  induction segments generalizing names others with
  | nil =>
    rw [List.length_eq_zero_iff.1 hnames.symm, List.length_eq_zero_iff.1 hothers.symm]
  | cons segment rest ih =>
    cases hsegment : Marked.hasWildcard segment with
    | false =>
      rw [wildSegments_cons_plain hsegment] at hnames hothers
      rw [fill_cons_plain hsegment, fill_cons_plain hsegment] at h
      exact ih hnames hothers (List.cons.inj h).2
    | true =>
      rw [wildSegments_cons_wild hsegment, List.length_cons] at hnames hothers
      obtain ⟨name, names, rfl⟩ := List.exists_cons_of_length_eq_add_one hnames.symm
      obtain ⟨other, others, rfl⟩ := List.exists_cons_of_length_eq_add_one hothers.symm
      rw [fill_cons_wild hsegment, fill_cons_wild hsegment] at h
      obtain ⟨hfirst, hrest⟩ := List.cons.inj h
      rw [Marked.escape_injective hfirst,
        ih (Nat.add_right_cancel hnames) (Nat.add_right_cancel hothers) hrest]

/-- Segments that are filled with proper names hold no slash. -/
theorem slash_not_mem_fill {segments names : List Text} (hsegments : ∀ s ∈ segments, '/' ∉ s)
    (hnames : ∀ name ∈ names, ValidName name) : ∀ s ∈ fill segments names, '/' ∉ s := by
  fun_induction fill segments names with
  | case1 names => exact fun s hs => absurd hs List.not_mem_nil
  | case2 segment rest => exact hsegments
  | case3 segment rest name names hsegment ih =>
    rw [List.forall_mem_cons] at hsegments hnames
    have hname : '/' ∉ Marked.escape name := by
      rw [Marked.mem_escape (by decide)]
      exact hnames.1.2.2.2
    exact List.forall_mem_cons.2 ⟨hname, ih hsegments.2 hnames.2⟩
  | case4 segment rest name names hsegment ih =>
    rw [List.forall_mem_cons] at hsegments
    exact List.forall_mem_cons.2 ⟨hsegments.1, ih hsegments.2 hnames⟩

/-! ## Walking -/

/-- Where segments lead to, there is a node. -/
theorem Leads.find {place segments : List Text} (h : Leads fs place segments) :
    (fs.find place).isSome := by
  cases segments with
  | nil => exact h
  | cons segment rest => exact h.1.isSome_find

/-- Segments are walked from a directory. -/
theorem IsChoice.isDirectory {place segments names : List Text}
    (h : IsChoice fs place segments names) (hne : segments ≠ []) : fs.IsDirectory place := by
  have hleads := h.leads
  obtain ⟨first, others, hfill⟩ := List.exists_cons_of_ne_nil (fill_ne_nil hne names)
  rw [hfill, List.map_cons] at hleads
  exact hleads.1

/-- Without segments there is nothing to choose, and the place itself is reached. -/
theorem isChoice_nil {place names : List Text} :
    IsChoice fs place [] names ↔ names = [] ∧ (fs.find place).isSome := by
  constructor
  · intro h
    exact ⟨List.forall₂_nil_left_iff.1 h.selected, h.leads.find⟩
  · rintro ⟨rfl, h⟩
    exact ⟨fun name hname => absurd hname List.not_mem_nil, .nil, h⟩

/-- A plain segment is walked as it stands. -/
theorem isChoice_cons_plain {place rest names : List Text} {segment : Text}
    (h : Marked.hasWildcard segment = false) :
    IsChoice fs place (segment :: rest) names ↔
      fs.IsDirectory place ∧ IsChoice fs (Path.step place (Marked.unmark segment)) rest names := by
  constructor
  · rintro ⟨hvalid, hselected, hleads⟩
    rw [wildSegments_cons_plain h] at hselected
    rw [fill_cons_plain h] at hleads
    exact ⟨hleads.1, hvalid, hselected, hleads.2⟩
  · rintro ⟨hdir, hvalid, hselected, hleads⟩
    refine ⟨hvalid, ?_, ?_⟩
    · rwa [wildSegments_cons_plain h]
    · rw [fill_cons_plain h]
      exact ⟨hdir, hleads⟩

/-- An empty segment alone asks for a directory. -/
theorem isChoice_stay {place names : List Text} :
    IsChoice fs place [[]] names ↔ names = [] ∧ fs.IsDirectory place := by
  have hstay : Path.step place (Marked.unmark []) = place := rfl
  rw [isChoice_cons_plain Marked.hasWildcard_nil, hstay, isChoice_nil]
  exact ⟨fun h => ⟨h.2.1, h.1⟩, fun h => ⟨h.2, h.1, h.2.isSome_find⟩⟩

/-- A segment with wildcards is replaced by a name that it selects, which leads one step down. -/
theorem isChoice_cons_wild {place rest names : List Text} {segment : Text}
    (h : Marked.hasWildcard segment = true) :
    IsChoice fs place (segment :: rest) names ↔
      ∃ name others, names = name :: others ∧ ValidName name ∧ Selects segment name ∧
        fs.IsDirectory place ∧ IsChoice fs (place ++ [name]) rest others := by
  constructor
  · rintro ⟨hvalid, hselected, hleads⟩
    rw [wildSegments_cons_wild h, List.forall₂_cons_left_iff] at hselected
    obtain ⟨name, others, hname, hothers, rfl⟩ := hselected
    rw [List.forall_mem_cons] at hvalid
    rw [fill_cons_wild h, List.map_cons, Marked.unmark_escape] at hleads
    obtain ⟨hdir, hleads⟩ := hleads
    rw [Path.step_of_valid hvalid.1] at hleads
    exact ⟨name, others, rfl, hvalid.1, hname, hdir, hvalid.2, hothers, hleads⟩
  · rintro ⟨name, others, rfl, hvalid, hname, hdir, hothers, hselected, hleads⟩
    refine ⟨List.forall_mem_cons.2 ⟨hvalid, hothers⟩, ?_, ?_⟩
    · rw [wildSegments_cons_wild h]
      exact .cons hname hselected
    · rw [fill_cons_wild h, List.map_cons, Marked.unmark_escape]
      refine ⟨hdir, ?_⟩
      rwa [Path.step_of_valid hvalid]

end MemShell.Glob
