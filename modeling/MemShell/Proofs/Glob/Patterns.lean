import MemShell.Path.Basic
import MemShell.Proofs.Glob.Matching
import MemShell.Word.Pattern

/-!
# Patterns of segments

The pattern of a segment is read back as one item for each of its glyphs, whatever characters these
are. Main statement: the regular expression of a segment matches the names that can be cut into
pieces for the glyphs, except that no wildcard at the start takes a dot.
-/

namespace MemShell

/-- A piece of a name that a glyph stands for. -/
inductive Glyph.StandsFor : Glyph → Text → Prop
  /-- A literal stands for itself. -/
  | literal (c : Char) : StandsFor ⟨c, false⟩ [c]
  /-- A question mark stands for any single character. -/
  | one (c : Char) : StandsFor ⟨'?', true⟩ [c]
  /-- An asterisk stands for any text. -/
  | many (piece : Text) : StandsFor ⟨'*', true⟩ piece

/-- The item that a glyph becomes in a regular expression. -/
def Glyph.item : Glyph → Regex.Item
  | ⟨c, false⟩ => .one (.char c)
  | ⟨'?', true⟩ => .one (.other '/')
  | ⟨_, true⟩ => .many (.other '/')

namespace Regex

/-- What can be escaped is no letter and no digit. -/
theorem not_isAlphanum_of_mem_escapable {c : Char} (h : c ∈ escapable) : c.isAlphanum = false := by
  have hall : escapable.all (fun c => !c.isAlphanum) = true := by decide
  simpa using List.all_eq_true.1 hall c h

/-- All metacharacters can be escaped. -/
theorem mem_escapable_of_mem_metacharacters {c : Char} (h : c ∈ metacharacters) :
    c ∈ escapable := by
  have hall : metacharacters.all (fun c => decide (c ∈ escapable)) = true := by decide
  exact of_decide_eq_true (List.all_eq_true.1 hall c h)

variable {done : List Item} {rest : Text}

/-- A character that is no metacharacter is read as itself. -/
theorem readFrom_cons {c : Char} (h : c ∉ metacharacters) :
    readFrom done (c :: rest) = readFrom (.one (.char c) :: done) rest := by
  have hne (d : Char) (hd : d ∈ metacharacters) (heq : c = d) : False := h (heq ▸ hd)
  rw [readFrom.eq_7 done c rest (hne '*' (by decide)) (fun _ _ heq _ => hne '\\' (by decide) heq)
    (fun _ _ heq _ => hne '[' (by decide) heq) (fun _ _ heq _ => hne '(' (by decide) heq), if_neg h]

/-- An escaped character is read as itself. -/
theorem readFrom_escape (c : Char) :
    readFrom done (escape c ++ rest) = readFrom (.one (.char c) :: done) rest := by
  rw [escape]
  split
  · next h =>
    rw [List.cons_append, List.singleton_append, readFrom, not_isAlphanum_of_mem_escapable h]
    rfl
  · next h => exact readFrom_cons fun hmeta => h (mem_escapable_of_mem_metacharacters hmeta)

/-- The pattern of a glyph is read as its item. -/
theorem readFrom_pattern (glyph : Glyph) :
    readFrom done (glyph.pattern ++ rest) = readFrom (glyph.item :: done) rest := by
  fun_cases Glyph.item glyph with
  | case1 c => exact readFrom_escape c
  | case2 => rfl
  | case3 c hc =>
    rw [Glyph.pattern]
    · rfl
    · exact hc

/-- The patterns of glyphs are read as their items. -/
theorem readFrom_flatMap_pattern (glyphs : List Glyph) :
    readFrom done (glyphs.flatMap Glyph.pattern) =
      some (done.reverse ++ glyphs.map Glyph.item) := by
  induction glyphs generalizing done with
  | nil => rw [List.flatMap_nil, readFrom, List.map_nil, List.append_nil]
  | cons glyph glyphs ih =>
    rw [List.flatMap_cons, readFrom_pattern, ih, List.reverse_cons, List.append_assoc,
      List.map_cons, List.singleton_append]

end Regex

namespace Glob

open Regex

variable {glyphs : List Glyph} {segment name : Text}

/-- A text fits glyphs exactly if it can be cut into pieces that they stand for. -/
theorem fits_iff_exists_pieces {text : Text} :
    Fits glyphs text ↔ ∃ pieces : List (Glyph × Text), pieces.map Prod.fst = glyphs ∧
      pieces.flatMap Prod.snd = text ∧ ∀ piece ∈ pieces, piece.1.StandsFor piece.2 := by
  constructor
  · intro h
    induction h with
    | nil => exact ⟨[], rfl, rfl, nofun⟩
    | @literal c glyphs text rest ih =>
      obtain ⟨pieces, rfl, rfl, hpieces⟩ := ih
      exact ⟨(⟨c, false⟩, [c]) :: pieces, rfl, rfl, List.forall_mem_cons.2 ⟨.literal c, hpieces⟩⟩
    | @one c glyphs text rest ih =>
      obtain ⟨pieces, rfl, rfl, hpieces⟩ := ih
      exact ⟨(⟨'?', true⟩, [c]) :: pieces, rfl, rfl, List.forall_mem_cons.2 ⟨.one c, hpieces⟩⟩
    | @many piece glyphs text rest ih =>
      obtain ⟨pieces, rfl, rfl, hpieces⟩ := ih
      exact ⟨(⟨'*', true⟩, piece) :: pieces, rfl, rfl,
        List.forall_mem_cons.2 ⟨.many piece, hpieces⟩⟩
  · rintro ⟨pieces, rfl, rfl, hpieces⟩
    induction pieces with
    | nil => exact .nil
    | cons piece pieces ih =>
      obtain ⟨glyph, text⟩ := piece
      obtain ⟨hpiece, hrest⟩ := List.forall_mem_cons.1 hpieces
      rw [List.map_cons, List.flatMap_cons]
      cases hpiece with
      | literal c => exact .literal c (ih hrest)
      | one c => exact .one c (ih hrest)
      | many piece => exact .many text (ih hrest)

/-- The items of glyphs match the names that fit the glyphs. -/
theorem matches_item_iff (hglobs : AreGlobs glyphs) (hname : '/' ∉ name) :
    Matches (glyphs.map Glyph.item) name ↔ Fits glyphs name := by
  induction glyphs generalizing name with
  | nil => exact ⟨fun h => by cases h; exact .nil, fun h => by cases h; exact .nil⟩
  | cons glyph glyphs ih =>
    obtain ⟨hglyph, hrest⟩ := List.forall_mem_cons.1 hglobs
    have hstep (piece : Text) {rest : Text} (heq : name = piece ++ rest) :
        Matches (glyphs.map Glyph.item) rest ↔ Fits glyphs rest :=
      ih hrest fun hmem => hname (heq ▸ List.mem_append_right piece hmem)
    have hother {c : Char} (hmem : c ∈ name) : (Atom.other '/').accepts c = true := by
      rw [Atom.accepts, bne_iff_ne]
      rintro rfl
      exact hname hmem
    obtain ⟨char, isWild⟩ := glyph
    cases isWild with
    | false =>
      rw [fits_literal_iff]
      constructor
      · intro h
        cases h with
        | one h rest =>
          cases beq_iff_eq.1 h
          exact ⟨_, rfl, (hstep [char] rfl).1 rest⟩
      · rintro ⟨text, rfl, h⟩
        exact .one (beq_iff_eq.2 rfl) ((hstep [char] rfl).2 h)
    | true =>
      rcases hglyph rfl with rfl | rfl
      · rw [fits_one_iff]
        constructor
        · intro h
          cases h with
          | one h rest => exact ⟨_, _, rfl, (hstep [_] rfl).1 rest⟩
        · rintro ⟨c, text, rfl, h⟩
          exact .one (hother List.mem_cons_self) ((hstep [c] rfl).2 h)
      · rw [fits_many_iff]
        constructor
        · intro h
          cases h with
          | many h rest => exact ⟨_, _, rfl, (hstep _ rfl).1 rest⟩
        · rintro ⟨piece, text, rfl, h⟩
          exact .many (fun c hc => hother (List.mem_append_left text hc)) ((hstep piece rfl).2 h)

/-- A look ahead for a dot keeps names that start with one from matching. -/
theorem matches_notAhead_iff (c : Char) {items : Regex} :
    Matches (.notAhead c :: items) name ↔ name.head? ≠ some c ∧ Matches items name := by
  constructor
  · intro h
    cases h with
    | notAhead h rest => exact ⟨h, rest⟩
  · rintro ⟨h, rest⟩
    exact .notAhead h rest

/-- The items that keep names with a dot at the start from wildcards. -/
def dotGuard (segment : Text) : Regex :=
  if startsWild (Marked.decode segment) then [.notAhead '.'] else []

/-- A segment with a wildcard has a regular expression, which is made of an item for each glyph. -/
theorem compile?_eq (hwild : Marked.hasWildcard segment = true) :
    compile? segment = some (dotGuard segment ++ (Marked.decode segment).map Glyph.item) := by
  have hglyphs : (Marked.decode segment).isEmpty = false := by
    rw [List.isEmpty_eq_false_iff]
    intro hnil
    rw [Marked.hasWildcard, hnil] at hwild
    cases hwild
  rw [compile?, pattern?, hglyphs, dotGuard]
  cases startsWild (Marked.decode segment) with
  | false => exact @readFrom_flatMap_pattern [] (Marked.decode segment)
  | true => exact @readFrom_flatMap_pattern [.notAhead '.'] (Marked.decode segment)

/-- A segment with a wildcard is made into a regular expression, which matches a name exactly if
the name can be cut into pieces that the glyphs of the segment stand for, and no wildcard comes
first in the segment if a dot does in the name. The search for a cut finds the same names. -/
theorem compile?_matches_iff (hwild : Marked.hasWildcard segment = true) (hname : ValidName name) :
    ∃ regex, compile? segment = some regex ∧
      (Matches regex name ↔
        (∃ pieces : List (Glyph × Text), pieces.map Prod.fst = Marked.decode segment ∧
          pieces.flatMap Prod.snd = name ∧ ∀ piece ∈ pieces, piece.1.StandsFor piece.2) ∧
        (startsWild (Marked.decode segment) = true → name.head? ≠ some '.')) ∧
      (matchesName segment name = true ↔ Matches regex name) := by
  have hslash : '/' ∉ name := hname.2.2.2
  have hmatches : Matches (dotGuard segment ++ (Marked.decode segment).map Glyph.item) name ↔
      Selects segment name := by
    rw [Selects, ← matches_item_iff (areGlobs_decode segment) hslash, dotGuard]
    cases startsWild (Marked.decode segment) with
    | false => simp
    | true => simp [matches_notAhead_iff, and_comm]
  refine ⟨_, compile?_eq hwild, ?_, (matchesName_iff hslash).trans hmatches.symm⟩
  rw [hmatches, Selects, fits_iff_exists_pieces]

/-- A segment with wildcards among characters that mean something in patterns. -/
def brackets : Text :=
  Marked.wildcard '*' ++ ['(', '.', '\n'] ++ Marked.wildcard '?' ++ ['?'] ++
    Marked.escape [Marked.marker] ++ Marked.wildcard '*'

/-- A name with such characters, cut into pieces for the glyphs of the segment. -/
def bracketPieces : List (Glyph × Text) :=
  [(⟨'*', true⟩, []), (⟨'(', false⟩, ['(']), (⟨'.', false⟩, ['.']), (⟨'\n', false⟩, ['\n']),
    (⟨'?', true⟩, ['*']), (⟨'?', false⟩, ['?']), (⟨Marked.marker, false⟩, [Marked.marker]),
    (⟨'*', true⟩, [')', '\n'])]

theorem compile?_matches_iff_brackets :
    Marked.hasWildcard brackets = true ∧
      ∃ regex, compile? brackets = some regex ∧
        Matches regex ['(', '.', '\n', '*', '?', '\x1b', ')', '\n'] ∧
        ¬Matches regex ['.', '(', '.', '\n', '*', '?', '\x1b', ')', '\n'] := by
  have hwild : Marked.hasWildcard brackets = true := by decide
  obtain ⟨regex, hregex, hiff, -⟩ := compile?_matches_iff hwild
    (show ValidName ['(', '.', '\n', '*', '?', '\x1b', ')', '\n'] by decide)
  obtain ⟨other, hother, hdot, -⟩ := compile?_matches_iff hwild
    (show ValidName ['.', '(', '.', '\n', '*', '?', '\x1b', ')', '\n'] by decide)
  obtain rfl : regex = other := Option.some.inj (hregex.symm.trans hother)
  have hpieces : ∀ piece ∈ bracketPieces, piece.1.StandsFor piece.2 := by
    simp only [bracketPieces, List.forall_mem_cons]
    exact ⟨.many _, .literal _, .literal _, .literal _, .one _, .literal _, .literal _, .many _,
      nofun⟩
  exact ⟨hwild, regex, hregex, hiff.2 ⟨⟨bracketPieces, by decide, rfl, hpieces⟩, by decide⟩,
    fun h => (hdot.1 h).2 (by decide) rfl⟩

end Glob

end MemShell
