import MemShell.Token.Lexer

/-!
# Steps of the scanner

The scanner has one equation for each kind of character. A line that can be split is taken apart
step by step, and the relation below has one rule for each kind of step. It leaves positions and
errors out, so what holds of the tokens of a line is proved by induction on it.
-/

namespace MemShell.Token

/-- Whether a character outside all groups ends the word before it and belongs to no word: a blank
or the separator of commands. -/
def IsBoundary (c : Char) : Prop := Text.isBlank c = true ∨ c = ';'

/-- The tokens that a boundary stands for: a separator is one itself. -/
def ofBoundary (c : Char) : List Token := if c = ';' then [.separator] else []

/-- A blank stands for no token. -/
theorem ofBoundary_of_isBlank {c : Char} (h : Text.isBlank c = true) : ofBoundary c = [] := by
  refine if_neg ?_
  rintro rfl
  revert h
  decide

/-- A boundary is none of the characters with a meaning of their own. -/
theorem IsBoundary.ne {c d : Char} (h : IsBoundary c) (hd : Text.isBlank d = false)
    (hs : d ≠ ';') : c ≠ d := by
  rintro rfl
  rcases h with h | h
  · rw [h] at hd
    exact Bool.noConfusion hd
  · exact hs h

/-- Only outside all groups is a character plain. -/
theorem eq_nil_of_groupStep {groups : List Group} {c : Char} (h : groupStep groups c = .plain) :
    groups = [] := by
  unfold groupStep at h
  grind

/-- A refused character is a brace, closed without being open or inside a quoted span. -/
theorem refused_of_groupStep {groups : List Group} {c : Char} {error : Nat → LexError}
    (h : groupStep groups c = .refuse error) : error = .unopenedBrace ∨ error = .braceInQuotes := by
  unfold groupStep at h
  grind

/-- A character that is neither quote opens no quoted span. -/
theorem ofQuote?_eq_none {c : Char} (hs : c ≠ '\'') (hd : c ≠ '"') : Group.ofQuote? c = none :=
  Group.ofQuote?.eq_3 c hs hd

/-- A character that is no quote and no brace is plain outside all groups. -/
theorem groupStep_nil {c : Char} (hs : c ≠ '\'') (hd : c ≠ '"') (ho : c ≠ '\x7b')
    (hc : c ≠ '\x7d') : groupStep [] c = .plain := by
  simp [groupStep, ofQuote?_eq_none hs hd, ho, hc]

/-- A boundary is plain outside all groups. -/
theorem IsBoundary.groupStep {c : Char} (h : IsBoundary c) : groupStep [] c = .plain :=
  groupStep_nil (h.ne (by decide) (by decide)) (h.ne (by decide) (by decide))
    (h.ne (by decide) (by decide)) (h.ne (by decide) (by decide))

section Equations

variable (position : Nat) (groups : List Group) (current rest : Text)

/-- A backslash takes the next character with it. -/
theorem scan_pair (c : Char) :
    scan position groups current ('\\' :: c :: rest) =
      scan (position + 2) groups (current ++ ['\\', c]) rest := by
  rw [scan, if_pos rfl]

/-- A character that the groups keep is added to the word. -/
theorem scan_keep {c : Char} {after : List Group} (hc : c ≠ '\\')
    (h : groupStep groups c = .keep after) :
    scan position groups current (c :: rest) =
      scan (position + 1) after (current ++ [c]) rest := by
  rw [scan.eq_def]
  simp only [hc, h, ite_false]

/-- A boundary ends the word. -/
theorem scan_boundary {c : Char} (h : IsBoundary c) :
    scan position [] current (c :: rest) =
      (scan (position + 1) [] [] rest).map (ofCurrent current ++ ofBoundary c ++ ·) := by
  have hb : c ≠ '\\' := h.ne (by decide) (by decide)
  have hblank : Text.isBlank ';' = false := by decide
  rw [scan.eq_def]
  simp only [hb, h.groupStep, ite_false]
  by_cases hc : c = ';'
  · subst hc
    simp [hblank, ofBoundary]
  · simp [h.resolve_right hc, hc, ofBoundary]

/-- Blanks between words are passed over. -/
theorem scan_blanks {blanks : Text} (h : ∀ c ∈ blanks, Text.isBlank c = true) :
    scan position [] [] (blanks ++ rest) = scan (position + blanks.length) [] [] rest := by
  induction blanks generalizing position with
  | nil => rfl
  | cons c blanks ih =>
    obtain ⟨hc, hblanks⟩ := List.forall_mem_cons.1 h
    rw [List.cons_append, scan_boundary _ _ _ (.inl hc), ih _ hblanks, ofBoundary_of_isBlank hc,
      List.length_cons, Nat.add_right_comm, Nat.add_assoc]
    cases scan (position + (blanks.length + 1)) [] [] rest <;> rfl

/-- A redirect operator ends the word, and the longer one is taken where it stands. -/
theorem scan_append (after : Text) :
    scan position [] current ('>' :: '>' :: after) =
      (scan (position + 2) [] [] after).map (ofRedirect current .append ++ ·) := by
  have hb : Text.isBlank '>' = false := by decide
  have hstep : groupStep [] '>' = .plain := rfl
  simp [scan, hstep, hb]

/-- A redirect operator ends the word. -/
theorem scan_write {rest : Text} (h : rest.head? ≠ some '>') :
    scan position [] current ('>' :: rest) =
      (scan (position + 1) [] [] rest).map (ofRedirect current .write ++ ·) := by
  have hb : Text.isBlank '>' = false := by decide
  have hstep : groupStep [] '>' = .plain := rfl
  cases rest with
  | nil => simp [scan, hstep, hb, ofCurrent, Except.map]
  | cons d after =>
    have hd : d ≠ '>' := by simpa using h
    simp [scan, hstep, hb, hd]

/-- Any other character outside all groups is added to the word. -/
theorem scan_plain {c : Char} (hc : c ≠ '\\') (h : groupStep [] c = .plain)
    (hn : ¬IsBoundary c) (hr : c ≠ '>') :
    scan position [] current (c :: rest) = scan (position + 1) [] (current ++ [c]) rest := by
  rw [IsBoundary, not_or] at hn
  rw [scan.eq_def]
  simp only [hc, h, hn.1, hn.2, hr, ite_false, Bool.false_eq_true]

end Equations

/-! ## Lines that can be split -/

/-- The rest of a line is split into tokens, where groups are open with the innermost first and a
word has been collected. -/
inductive Splits : (groups : List Group) → (current text : Text) → List Token → Prop
  /-- The end of the line ends the word. -/
  | done (current : Text) : Splits [] current [] (ofCurrent current)
  /-- A backslash pair is added to the word. -/
  | pair (c : Char) {groups : List Group} {current rest : Text} {tokens : List Token}
    (h : Splits groups (current ++ ['\\', c]) rest tokens) :
    Splits groups current ('\\' :: c :: rest) tokens
  /-- A character that the groups keep is added to the word. -/
  | keep {c : Char} (hc : c ≠ '\\') {groups after : List Group}
    (hstep : groupStep groups c = .keep after) {current rest : Text} {tokens : List Token}
    (h : Splits after (current ++ [c]) rest tokens) : Splits groups current (c :: rest) tokens
  /-- A boundary ends the word. -/
  | boundary {c : Char} (hc : IsBoundary c) (current : Text) {rest : Text} {tokens : List Token}
    (h : Splits [] [] rest tokens) :
    Splits [] current (c :: rest) (ofCurrent current ++ ofBoundary c ++ tokens)
  /-- The longer redirect operator ends the word. -/
  | append (current : Text) {rest : Text} {tokens : List Token} (h : Splits [] [] rest tokens) :
    Splits [] current ('>' :: '>' :: rest) (ofRedirect current .append ++ tokens)
  /-- The shorter redirect operator ends the word. -/
  | write (current : Text) {rest : Text} (hrest : rest.head? ≠ some '>') {tokens : List Token}
    (h : Splits [] [] rest tokens) :
    Splits [] current ('>' :: rest) (ofRedirect current .write ++ tokens)
  /-- Any other character outside all groups is added to the word. -/
  | plain {c : Char} (hc : c ≠ '\\') (hstep : groupStep [] c = .plain) (hn : ¬IsBoundary c)
    (hr : c ≠ '>') {current rest : Text} {tokens : List Token}
    (h : Splits [] (current ++ [c]) rest tokens) : Splits [] current (c :: rest) tokens

/-- Tokens behind others are found from those of the part behind. -/
private theorem exists_of_map_eq_ok {part : Except LexError (List Token)}
    {f : List Token → List Token} {tokens : List Token} (h : part.map f = .ok tokens) :
    ∃ found, part = .ok found ∧ tokens = f found := by
  cases part with
  | error error => cases h
  | ok found => exact ⟨found, rfl, (Except.ok.inj h).symm⟩

/-- The scanner takes the steps. -/
theorem Splits.of_scan {position : Nat} {groups : List Group} {current text : Text}
    {tokens : List Token} (h : scan position groups current text = .ok tokens) :
    Splits groups current text tokens := by
  fun_induction scan position groups current text generalizing tokens with
  | case1 position current =>
    cases h
    exact .done current
  | case2 | case3 | case4 | case6 => cases h
  | case5 position groups current d after ih => exact .pair d (ih h)
  | case7 position groups current c rest hc after hstep ih => exact .keep hc hstep (ih h)
  | case8 position groups current c rest hc hstep hblank ih =>
    obtain rfl := eq_nil_of_groupStep hstep
    obtain ⟨found, hfound, rfl⟩ := exists_of_map_eq_ok h
    have hstepped := Splits.boundary (.inl hblank) current (ih hfound)
    rwa [ofBoundary_of_isBlank hblank, List.append_nil] at hstepped
  | case9 position groups current rest hc hstep hblank ih =>
    obtain rfl := eq_nil_of_groupStep hstep
    obtain ⟨found, hfound, rfl⟩ := exists_of_map_eq_ok h
    simpa [ofBoundary] using Splits.boundary (.inr rfl) current (ih hfound)
  | case10 position groups current hc hstep hblank hs =>
    obtain rfl := eq_nil_of_groupStep hstep
    cases h
    have hend : ([] : Text).head? ≠ some '>' := by simp
    simpa [ofCurrent] using Splits.write current hend (.done [])
  | case11 position groups current after hc hstep hblank hs ih =>
    obtain rfl := eq_nil_of_groupStep hstep
    obtain ⟨found, hfound, rfl⟩ := exists_of_map_eq_ok h
    exact .append current (ih hfound)
  | case12 position groups current d after hgt hc hstep hblank hs ih =>
    obtain rfl := eq_nil_of_groupStep hstep
    obtain ⟨found, hfound, rfl⟩ := exists_of_map_eq_ok h
    exact .write current (by simpa using hgt) (ih hfound)
  | case13 position groups current c rest hc hstep hblank hs hgt ih =>
    obtain rfl := eq_nil_of_groupStep hstep
    exact .plain hc hstep (not_or.2 ⟨hblank, hs⟩) hgt (ih h)

/-- The steps are those of the scanner. -/
theorem Splits.scan_eq {groups : List Group} {current text : Text} {tokens : List Token}
    (h : Splits groups current text tokens) (position : Nat) :
    scan position groups current text = .ok tokens := by
  induction h generalizing position with
  | done current => rfl
  | pair c h ih => rw [scan_pair, ih]
  | keep hc hstep h ih => rw [scan_keep _ _ _ _ hc hstep, ih]
  | boundary hc current h ih => rw [scan_boundary _ _ _ hc, ih]; rfl
  | append current h ih => rw [Token.scan_append, ih]; rfl
  | write current hrest h ih => rw [scan_write _ _ hrest, ih]; rfl
  | plain hc hstep hn hr h ih => rw [scan_plain _ _ _ hc hstep hn hr, ih]

/-- A line is split into tokens exactly if the scanner finds them. -/
theorem splits_iff {line : Text} {tokens : List Token} :
    Splits [] [] line tokens ↔ tokenize line = .ok tokens :=
  ⟨fun h => h.scan_eq 0, .of_scan⟩

end MemShell.Token
