import Mathlib.Data.List.TakeWhile
import MemShell.Proofs.Token.Composition

/-!
# Blanks at the ends of a line

Blanks before a line are passed over. Blanks behind it end its last word or stay inside a group that
is not closed anyway; only where the line itself ends in a backslash is the first of them taken into
a word. So a line without the blanks at its ends is read as it was, unless a backslash at its end has
lost the blank that it stood before.
-/

namespace MemShell

namespace LexError

/-- Whether an error is that the line ends in a backslash. -/
def IsTrailing : LexError → Prop
  | trailingBackslash _ => True
  | _ => False

/-- The message for a line that ends in a backslash. -/
def trailingMessage : Text := (trailingBackslash 0).message

/-- Whether a text differs from the message for a line that ends in a backslash at a place that both
have. -/
def Diverges (text : Text) : Prop :=
  ∃ (place : Nat) (c d : Char), text[place]? = some c ∧ trailingMessage[place]? = some d ∧ c ≠ d

/-- What stands behind a text that diverges does not matter. -/
theorem Diverges.append {text : Text} (h : Diverges text) (rest : Text) :
    Diverges (text ++ rest) := by
  obtain ⟨place, c, d, hc, hd, hne⟩ := h
  obtain ⟨hplace, -⟩ := List.getElem?_eq_some_iff.1 hc
  exact ⟨place, c, d, by rw [List.getElem?_append_left hplace, hc], hd, hne⟩

/-- A text that diverges does not start with the message. -/
theorem Diverges.ne_append {text : Text} (h : Diverges text) (rest : Text) :
    trailingMessage ++ rest ≠ text := by
  rintro rfl
  obtain ⟨place, c, d, hc, hd, hne⟩ := h
  obtain ⟨hplace, -⟩ := List.getElem?_eq_some_iff.1 hd
  rw [List.getElem?_append_left hplace, hd] at hc
  exact hne (Option.some.inj hc).symm

/-- The messages of all other errors diverge. -/
theorem diverges_message {error : LexError} (h : ¬error.IsTrailing) : Diverges error.message := by
  cases error with
  | trailingBackslash position => exact absurd trivial h
  | unopenedBrace | braceInQuotes => exact ⟨11, 'c', 'e', rfl, rfl, by decide⟩
  | unclosedBrace | unclosedQuote => exact ⟨25, 'M', '\'', rfl, rfl, by decide⟩

/-- Only a line that ends in a backslash is refused with the message for it. -/
theorem message_eq_trailingMessage_iff {error : LexError} :
    error.message = trailingMessage ↔ error.IsTrailing := by
  constructor
  · intro h
    by_contra hother
    exact (diverges_message hother).ne_append [] (by rw [List.append_nil, h])
  · intro h
    cases error with
    | trailingBackslash position => rfl
    | unopenedBrace | braceInQuotes | unclosedBrace | unclosedQuote => exact h.elim

end LexError

namespace Text

/-- What stripping removes stands at the ends and is blank. -/
theorem exists_strip (text : Text) :
    ∃ front back : Text, (∀ c ∈ front, isBlank c = true) ∧ (∀ c ∈ back, isBlank c = true) ∧
      text = front ++ (strip text ++ back) := by
  let inner : Text := text.dropWhile isBlank
  refine ⟨text.takeWhile isBlank, (inner.reverse.takeWhile isBlank).reverse,
    fun c => List.mem_takeWhile_imp, ?_, ?_⟩
  · intro c hc
    exact List.mem_takeWhile_imp (List.mem_reverse.1 hc)
  · have hinner : strip text ++ (inner.reverse.takeWhile isBlank).reverse = inner := by
      rw [strip, ← List.reverse_append, List.takeWhile_append_dropWhile, List.reverse_reverse]
    rw [hinner, List.takeWhile_append_dropWhile]

end Text

namespace Token

/-- What is read from a line: its tokens, or the message that it is refused with. -/
def reading (line : Text) : Except Text (List Token) := (tokenize line).mapError LexError.message

/-- Where a line starts does not matter for what is read from it. -/
theorem reading_eq_scan (line : Text) (position : Nat) :
    reading line = (scan position [] [] line).mapError LexError.message := by
  have hshift := scan_shift position 0 [] [] line
  rw [Nat.zero_add] at hshift
  rw [hshift, reading, tokenize]
  cases scan 0 [] [] line <;> simp [Except.mapError]

/-- Only a line that ends in a backslash is refused as one that does. -/
theorem exists_eq_append_of_trailing {position : Nat} {groups : List Group} {current line : Text}
    {error : LexError} (h : scan position groups current line = .error error)
    (htrailing : error.IsTrailing) : ∃ front, line = front ++ ['\\'] := by
  have hcons {c : Char} {rest : Text} (hrest : ∃ front, rest = front ++ ['\\']) :
      ∃ front, c :: rest = front ++ ['\\'] := by
    obtain ⟨front, rfl⟩ := hrest
    exact ⟨c :: front, rfl⟩
  have hmap {part : Except LexError (List Token)} {f : List Token → List Token}
      (hpart : part.map f = .error error) : part = .error error := by
    cases part with
    | ok tokens => cases hpart
    | error other => cases hpart; rfl
  fun_induction scan position groups current line with
  | case1 | case10 => cases h
  | case2 | case3 => cases h; exact htrailing.elim
  | case4 => exact ⟨[], rfl⟩
  | case5 position groups current d after ih => exact hcons (hcons (ih h))
  | case6 position groups current c rest hc refusal hstep =>
    cases h
    rcases refused_of_groupStep hstep with rfl | rfl <;> exact htrailing.elim
  | case7 position groups current c rest hc after hstep ih => exact hcons (ih h)
  | case8 position groups current c rest hc hstep hblank ih => exact hcons (ih (hmap h))
  | case9 position groups current rest hc hstep hblank ih => exact hcons (ih (hmap h))
  | case11 position groups current after hc hstep hblank hs ih =>
    exact hcons (hcons (ih (hmap h)))
  | case12 position groups current d after hgt hc hstep hblank hs ih => exact hcons (ih (hmap h))
  | case13 position groups current c rest hc hstep hblank hs hgt ih => exact hcons (ih h)

section Blanks

variable {blanks : Text} (hblanks : ∀ c ∈ blanks, Text.isBlank c = true)

include hblanks

/-- Blanks at the end of a line end its last word. -/
theorem scan_blanks_end (position : Nat) (current : Text) :
    scan position [] current blanks = .ok (ofCurrent current) := by
  cases blanks with
  | nil => rfl
  | cons c blanks =>
    obtain ⟨hc, hrest⟩ := List.forall_mem_cons.1 hblanks
    have hpassed := scan_blanks (position + 1) [] hrest
    rw [List.append_nil] at hpassed
    rw [scan_boundary _ _ _ (.inl hc), hpassed, ofBoundary_of_isBlank hc]
    simp [scan, Except.map, ofCurrent]

/-- Blanks inside groups are part of the word. -/
theorem scan_blanks_inside {groups : List Group} (hgroups : groups ≠ []) (position : Nat)
    (current : Text) :
    scan position groups current blanks =
      scan (position + blanks.length) groups (current ++ blanks) [] := by
  induction blanks generalizing position current with
  | nil => rw [List.append_nil]; rfl
  | cons c blanks ih =>
    obtain ⟨hc, hrest⟩ := List.forall_mem_cons.1 hblanks
    have hne {d : Char} (hd : Text.isBlank d = false) (hs : d ≠ ';') : c ≠ d :=
      IsBoundary.ne (.inl hc) hd hs
    have hstep : groupStep groups c = .keep groups := by
      have hquote : Group.ofQuote? c = none :=
        ofQuote?_eq_none (hne (by decide) (by decide)) (hne (by decide) (by decide))
      have hopen : c ≠ '\x7b' := hne (by decide) (by decide)
      have hclose : c ≠ '\x7d' := hne (by decide) (by decide)
      simp [groupStep, hquote, hopen, hclose, hgroups]
    rw [scan_keep _ _ _ _ (hne (by decide) (by decide)) hstep, ih hrest, List.length_cons,
      Nat.add_right_comm, Nat.add_assoc, List.append_assoc]
    rfl

/-- Blanks behind a line do not change what is read from it, unless it ends in a backslash that takes
one of them. -/
theorem scan_append_blanks {position : Nat} {groups : List Group} {current line : Text}
    (h : ∀ error, scan position groups current line = .error error → ¬error.IsTrailing) :
    (scan position groups current (line ++ blanks)).mapError LexError.message =
      (scan position groups current line).mapError LexError.message := by
  have hmap {part extended : Except LexError (List Token)} {f : List Token → List Token}
      (hpart : ∀ error, part.map f = .error error → ¬error.IsTrailing)
      (ih : (∀ error, part = .error error → ¬error.IsTrailing) →
        extended.mapError LexError.message = part.mapError LexError.message) :
      (extended.map f).mapError LexError.message = (part.map f).mapError LexError.message := by
    have hread := ih fun error herror => hpart error (by rw [herror]; rfl)
    cases part <;> cases extended <;> simp_all [Except.map, Except.mapError]
  fun_induction scan position groups current line with
  | case1 position current => rw [List.nil_append, scan_blanks_end hblanks]
  | case2 position current outer =>
    rw [List.nil_append, scan_blanks_inside hblanks (List.cons_ne_nil _ _)]
    rfl
  | case3 position current quote outer hquote =>
    rw [List.nil_append, scan_blanks_inside hblanks (List.cons_ne_nil _ _)]
    cases quote with
    | brace => exact absurd rfl hquote
    | single | double => rfl
  | case4 => exact absurd trivial (h _ rfl)
  | case5 position groups current d after ih =>
    rw [List.cons_append, List.cons_append, scan_pair, ih h]
  | case6 position groups current c rest hc refusal hstep =>
    rw [List.cons_append, scan.eq_def]
    simp only [hc, hstep, ite_false]
  | case7 position groups current c rest hc after hstep ih =>
    rw [List.cons_append, scan_keep _ _ _ _ hc hstep, ih h]
  | case8 position groups current c rest hc hstep hblank ih =>
    obtain rfl := eq_nil_of_groupStep hstep
    rw [List.cons_append, scan_boundary _ _ _ (.inl hblank), ofBoundary_of_isBlank hblank,
      List.append_nil]
    exact hmap h ih
  | case9 position groups current rest hc hstep hblank ih =>
    obtain rfl := eq_nil_of_groupStep hstep
    have hseparator (tokens : List Token) : ofCurrent current ++ ofBoundary ';' ++ tokens =
        ofCurrent current ++ .separator :: tokens := List.append_assoc _ _ _
    rw [List.cons_append, scan_boundary _ _ _ (.inr rfl)]
    simp only [hseparator]
    exact hmap h ih
  | case10 position groups current hc hstep hblank hs =>
    obtain rfl := eq_nil_of_groupStep hstep
    have hhead : blanks.head? ≠ some '>' := by
      intro hhead
      have hgt := hblanks _ (List.mem_of_head? hhead)
      revert hgt
      decide
    rw [List.singleton_append, scan_write _ _ hhead, scan_blanks_end hblanks]
    simp [Except.map, ofCurrent]
  | case11 position groups current after hc hstep hblank hs ih =>
    obtain rfl := eq_nil_of_groupStep hstep
    rw [List.cons_append, List.cons_append, Token.scan_append]
    exact hmap h ih
  | case12 position groups current d after hgt hc hstep hblank hs ih =>
    obtain rfl := eq_nil_of_groupStep hstep
    rw [List.cons_append, scan_write _ _ (by simpa using hgt)]
    exact hmap h ih
  | case13 position groups current c rest hc hstep hblank hs hgt ih =>
    obtain rfl := eq_nil_of_groupStep hstep
    rw [List.cons_append, scan_plain _ _ _ hc hstep (not_or.2 ⟨hblank, hs⟩) hgt, ih h]

end Blanks

/-! ## Stripped lines -/

/-- Whether stripping takes a blank from the backslash before it: without the blanks at its ends the
line stops in the middle of a pair, and it did not stop there. -/
structure CutShort (line : Text) : Prop where
  /-- The stripped line ends in a backslash that is the start of a pair. -/
  trailing : ∃ error, tokenize (Text.strip line) = .error error ∧ error.IsTrailing
  /-- The line itself ends in a blank. -/
  blank : ∃ front c, line = front ++ [c] ∧ Text.isBlank c = true

/-- Only a line with a backslash behind which there are nothing but blanks is cut short. -/
theorem not_cutShort {line : Text} (h : (Text.strip line).getLast? ≠ some '\\') :
    ¬CutShort line := by
  rintro ⟨⟨error, herror, htrailing⟩, -⟩
  obtain ⟨front, hfront⟩ := exists_eq_append_of_trailing herror htrailing
  exact h (by rw [hfront, List.getLast?_concat])

/-- A line that is cut short does not end in a backslash. -/
theorem CutShort.not_trailing {line : Text} (h : CutShort line) {error : LexError}
    (herror : tokenize line = .error error) : ¬error.IsTrailing := by
  intro htrailing
  obtain ⟨front, c, hfront, hc⟩ := h.blank
  obtain ⟨body, hbody⟩ := exists_eq_append_of_trailing herror htrailing
  obtain ⟨-, hlast⟩ := List.append_inj' (hfront.symm.trans hbody) rfl
  cases hlast
  revert hc
  decide

/-- A line is read as it is read without the blanks at its ends, unless it is cut short. -/
theorem reading_strip_eq_iff (line : Text) :
    reading (Text.strip line) = reading line ↔ ¬CutShort line := by
  obtain ⟨front, back, hfront, hback, hline⟩ := line.exists_strip
  constructor
  · intro hread hcut
    obtain ⟨error, herror, htrailing⟩ := hcut.trailing
    cases hwhole : tokenize line with
    | ok tokens =>
      rw [reading, reading, herror, hwhole] at hread
      cases hread
    | error other =>
      rw [reading, reading, herror, hwhole] at hread
      have hmessage : other.message = LexError.trailingMessage := by
        rw [← LexError.message_eq_trailingMessage_iff.2 htrailing]
        exact (Except.error.inj hread).symm
      exact hcut.not_trailing hwhole (LexError.message_eq_trailingMessage_iff.1 hmessage)
  · intro hcut
    have hbehind : reading (Text.strip line ++ back) = reading (Text.strip line) := by
      rcases eq_or_ne back [] with rfl | hne
      · rw [List.append_nil]
      · refine scan_append_blanks hback fun error herror htrailing => ?_
        refine hcut ⟨⟨error, herror, htrailing⟩, front ++ (Text.strip line ++ back.dropLast),
          back.getLast hne, ?_, hback _ (List.getLast_mem hne)⟩
        rw [List.append_assoc, List.append_assoc, List.dropLast_append_getLast hne, ← hline]
    have hbefore : reading line = reading (Text.strip line ++ back) := by
      conv_lhs => rw [hline, reading, tokenize, scan_blanks _ _ hfront]
      exact (reading_eq_scan _ _).symm
    rw [hbefore, hbehind]

end Token

end MemShell
