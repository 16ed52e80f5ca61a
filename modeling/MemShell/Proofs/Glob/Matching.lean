import MemShell.Proofs.Word.Decoding
import MemShell.Word.Glob

/-!
# Matching names

A name fits glyphs if it can be cut into consecutive pieces, one for each glyph: the character
itself for a literal, any single character for a question mark, and any text for an asterisk. The
search by which a segment is matched finds such a cut exactly if there is one.
-/

namespace MemShell.Glob

/-- A text is a row of pieces that glyphs stand for. -/
inductive Fits : List Glyph → Text → Prop
  /-- No glyphs stand for the empty text. -/
  | nil : Fits [] []
  /-- A literal stands for itself. -/
  | literal (c : Char) {glyphs : List Glyph} {text : Text} (rest : Fits glyphs text) :
      Fits (⟨c, false⟩ :: glyphs) (c :: text)
  /-- A question mark stands for one character. -/
  | one (c : Char) {glyphs : List Glyph} {text : Text} (rest : Fits glyphs text) :
      Fits (⟨'?', true⟩ :: glyphs) (c :: text)
  /-- An asterisk stands for any number of characters. -/
  | many (piece : Text) {glyphs : List Glyph} {text : Text} (rest : Fits glyphs text) :
      Fits (⟨'*', true⟩ :: glyphs) (piece ++ text)

/-- A literal takes the first character of a text, which is itself. -/
theorem fits_literal_iff {c : Char} {glyphs : List Glyph} {text : Text} :
    Fits (⟨c, false⟩ :: glyphs) text ↔ ∃ rest, text = c :: rest ∧ Fits glyphs rest := by
  constructor
  · intro h
    cases h with
    | literal c rest => exact ⟨_, rfl, rest⟩
  · rintro ⟨rest, rfl, h⟩
    exact .literal c h

/-- A question mark takes the first character of a text. -/
theorem fits_one_iff {glyphs : List Glyph} {text : Text} :
    Fits (⟨'?', true⟩ :: glyphs) text ↔ ∃ c rest, text = c :: rest ∧ Fits glyphs rest := by
  constructor
  · intro h
    cases h with
    | one c rest => exact ⟨c, _, rfl, rest⟩
  · rintro ⟨c, rest, rfl, h⟩
    exact .one c h

/-- An asterisk takes some of the first characters of a text. -/
theorem fits_many_iff {glyphs : List Glyph} {text : Text} :
    Fits (⟨'*', true⟩ :: glyphs) text ↔ ∃ piece rest, text = piece ++ rest ∧ Fits glyphs rest := by
  constructor
  · intro h
    cases h with
    | many piece rest => exact ⟨piece, _, rfl, rest⟩
  · rintro ⟨piece, rest, rfl, h⟩
    exact .many piece h

/-- A segment of marked text selects a name: the name fits it, and a dot at the start of the name is
not left to a wildcard. -/
def Selects (segment name : Text) : Prop :=
  Fits (Marked.decode segment) name ∧
    (startsWild (Marked.decode segment) = true → name.head? ≠ some '.')

/-- Glyphs as decoding gives them: the wildcards are question marks and asterisks. -/
def AreGlobs (glyphs : List Glyph) : Prop :=
  ∀ glyph ∈ glyphs, glyph.isWildcard = true → glyph.char = '?' ∨ glyph.char = '*'

/-- Decoding gives no other wildcards than question marks and asterisks. -/
theorem areGlobs_decode (text : Text) : AreGlobs (Marked.decode text) := by
  fun_induction Marked.decode text with
  | case1 => exact fun glyph hg => absurd hg List.not_mem_nil
  | case2 c => simp [AreGlobs]
  | case3 c d rest h ih =>
    have hd : d = '?' ∨ d = '*' := by simpa [Marked.isGlobChar] using h.2
    exact List.forall_mem_cons.2 ⟨fun _ => hd, ih⟩
  | case4 c d rest hw hm ih => exact List.forall_mem_cons.2 ⟨by simp, ih⟩
  | case5 c d rest hw hm ih => exact List.forall_mem_cons.2 ⟨by simp, ih⟩

/-- Within a text without slashes, every end of it is reached. -/
theorem mem_restsWithinName {text : Text} (h : '/' ∉ text) {rest : Text} :
    rest ∈ restsWithinName text ↔ ∃ piece, text = piece ++ rest := by
  induction text with
  | nil => simp [restsWithinName, eq_comm]
  | cons c text ih =>
    rw [List.mem_cons, not_or] at h
    rw [restsWithinName, if_neg (Ne.symm h.1), List.mem_cons, ih h.2]
    constructor
    · rintro (rfl | ⟨piece, rfl⟩)
      · exact ⟨[], rfl⟩
      · exact ⟨c :: piece, rfl⟩
    · rintro ⟨piece, hpiece⟩
      cases piece with
      | nil => exact .inl hpiece.symm
      | cons d piece => exact .inr ⟨piece, (List.cons.inj hpiece).2⟩

/-- The search finds a cut of a name exactly if the name fits. -/
theorem matchesGlyphs_iff {glyphs : List Glyph} (hglobs : AreGlobs glyphs) {name : Text}
    (hname : '/' ∉ name) : matchesGlyphs glyphs name = true ↔ Fits glyphs name := by
  induction glyphs generalizing name with
  | nil =>
    rw [matchesGlyphs, List.isEmpty_iff]
    exact ⟨fun h => h ▸ .nil, fun h => by cases h; rfl⟩
  | cons glyph glyphs ih =>
    obtain ⟨hglyph, hrest⟩ := List.forall_mem_cons.1 hglobs
    have hstep {c : Char} {rest : Text} (h : '/' ∉ c :: rest) :
        c ≠ '/' ∧ (matchesGlyphs glyphs rest = true ↔ Fits glyphs rest) :=
      ⟨Ne.symm (List.ne_of_not_mem_cons h), ih hrest (List.not_mem_of_not_mem_cons h)⟩
    obtain ⟨char, isWild⟩ := glyph
    cases isWild with
    | false =>
      rw [fits_literal_iff]
      cases name with
      | nil => simp [matchesGlyphs]
      | cons c name => simp [matchesGlyphs, (hstep hname).2, and_assoc]
    | true =>
      rcases hglyph rfl with rfl | rfl
      · rw [fits_one_iff]
        cases name with
        | nil => simp [matchesGlyphs]
        | cons c name => simp [matchesGlyphs, hstep hname, and_assoc]
      · rw [fits_many_iff, matchesGlyphs, List.any_eq_true]
        simp only [mem_restsWithinName hname]
        constructor
        · rintro ⟨rest, ⟨piece, rfl⟩, h⟩
          have hpart : '/' ∉ rest := fun hmem => hname (List.mem_append_right piece hmem)
          exact ⟨piece, rest, rfl, (ih hrest hpart).1 h⟩
        · rintro ⟨piece, rest, rfl, h⟩
          have hpart : '/' ∉ rest := fun hmem => hname (List.mem_append_right piece hmem)
          exact ⟨rest, ⟨piece, rfl⟩, (ih hrest hpart).2 h⟩

/-- A segment matches the names that it selects, and no others. -/
theorem matchesName_iff {segment name : Text} (hname : '/' ∉ name) :
    matchesName segment name = true ↔ Selects segment name := by
  have hdot : (!(startsWild (Marked.decode segment) && name.head? == some '.')) = true ↔
      (startsWild (Marked.decode segment) = true → name.head? ≠ some '.') := by
    cases startsWild (Marked.decode segment) <;> simp
  rw [matchesName, Selects, Bool.and_eq_true, hdot,
    matchesGlyphs_iff (areGlobs_decode segment) hname, and_comm]

end MemShell.Glob
