import MemShell.Proofs.Token.Grammar

/-!
# What tokens keep of a line

Main statement: the tokens of a line, put together in order, are the line without the blanks that
stand outside all groups and behind no backslash. Read alone, a word is one word again; the operator
of a redirect stands behind ASCII digits only; and a separator stands where the line before it and
the line behind it can each be split alone, into the tokens before it and behind it.
-/

namespace MemShell.Token

/-! ## Free characters -/

/-- Lines of the grammar are recognized by the groups that are open at their end. -/
instance : DecidablePred IsLine := fun line => decidable_of_iff _ (isLine_iff_openAfter line).symm

/-- The characters of a text without its free blanks, where a front stands before the text. A
character is free, outside all groups and behind no backslash, exactly if what stands before it is a
line by itself. -/
def withoutFreeBlanks (front : Text) : Text → Text
  | [] => []
  | c :: rest =>
    if Text.isBlank c = true ∧ IsLine front then withoutFreeBlanks (front ++ [c]) rest
    else c :: withoutFreeBlanks (front ++ [c]) rest

/-- A blank behind a line is left out. -/
theorem withoutFreeBlanks_blank {front : Text} {c : Char} (hc : Text.isBlank c = true)
    (hfront : IsLine front) (rest : Text) :
    withoutFreeBlanks front (c :: rest) = withoutFreeBlanks (front ++ [c]) rest := by
  rw [withoutFreeBlanks, if_pos ⟨hc, hfront⟩]

/-- What is no blank is kept. -/
theorem withoutFreeBlanks_of_not_blank {c : Char} (hc : Text.isBlank c = false)
    (front rest : Text) :
    withoutFreeBlanks front (c :: rest) = c :: withoutFreeBlanks (front ++ [c]) rest := by
  rw [withoutFreeBlanks, if_neg (by simp [hc])]

/-- What does not stand behind a line is kept. -/
theorem withoutFreeBlanks_of_not_isLine {front : Text} (hfront : ¬IsLine front) (c : Char)
    (rest : Text) :
    withoutFreeBlanks front (c :: rest) = c :: withoutFreeBlanks (front ++ [c]) rest := by
  rw [withoutFreeBlanks, if_neg (by simp [hfront])]

/-- A backslash that is not part of a pair is no end of a line. -/
theorem not_isLine_backslash {front : Text} {groups : List Group}
    (hfront : openAfter [] front = some groups) : ¬IsLine (front ++ ['\\']) := by
  rw [isLine_iff_openAfter, openAfter_append hfront]
  simp [openAfter]

/-! ## Texts -/

theorem text_ofCurrent (current : Text) : (ofCurrent current).flatMap Token.text = current := by
  unfold ofCurrent
  split
  · next h => simp [List.isEmpty_iff.1 h]
  · simp [Token.text]

theorem text_ofRedirect (current : Text) (mode : RedirectMode) :
    (ofRedirect current mode).flatMap Token.text = current ++ mode.operator := by
  unfold ofRedirect
  split
  · simp [Token.text]
  · simp [Token.text, text_ofCurrent]

/-- The tokens that are split off a text are the text behind the collected word, without the blanks
that are free. -/
theorem Splits.text_eq {groups : List Group} {current text : Text} {tokens : List Token}
    (h : Splits groups current text tokens) {front : Text}
    (hfront : openAfter [] front = some groups) :
    tokens.flatMap Token.text = current ++ withoutFreeBlanks front text := by
  have hgreater : Text.isBlank '>' = false := by decide
  have hplain : opened [] '>' = some [] := opened_of_plain rfl
  induction h generalizing front with
  | done current => rw [text_ofCurrent, withoutFreeBlanks, List.append_nil]
  | @pair c groups current rest tokens h ih =>
    have hread := openAfter_append_pair hfront c
    rw [withoutFreeBlanks_of_not_blank (by decide),
      withoutFreeBlanks_of_not_isLine (not_isLine_backslash hfront), ih (by simpa using hread)]
    simp
  | @keep c hc groups after hstep current rest tokens h ih =>
    have hread := openAfter_append_char hfront hc (opened_of_keep hstep)
    have hkept : ¬(Text.isBlank c = true ∧ IsLine front) := by
      rintro ⟨hblank, hline⟩
      rw [isLine_iff_openAfter, hfront] at hline
      obtain rfl : groups = [] := Option.some.inj hline
      cases (IsBoundary.groupStep (.inl hblank)).symm.trans hstep
    rw [withoutFreeBlanks, if_neg hkept, ih hread]
    simp
  | @boundary c hc current rest tokens h ih =>
    have hread := openAfter_append_char hfront (hc.ne (by decide) (by decide))
      (opened_of_plain hc.groupStep)
    rw [List.flatMap_append, List.flatMap_append, text_ofCurrent, ih hread, List.nil_append,
      List.append_assoc]
    by_cases hs : c = ';'
    · subst hs
      rw [withoutFreeBlanks_of_not_blank (by decide)]
      rfl
    · have hblank : Text.isBlank c = true := hc.resolve_right hs
      rw [ofBoundary_of_isBlank hblank,
        withoutFreeBlanks_blank hblank ((isLine_iff_openAfter front).2 hfront)]
      rfl
  | append current h ih =>
    have hfirst := openAfter_append_char hfront (by decide) hplain
    have hread := openAfter_append_char hfirst (by decide) hplain
    rw [List.flatMap_append, text_ofRedirect, ih hread, withoutFreeBlanks_of_not_blank hgreater,
      withoutFreeBlanks_of_not_blank hgreater]
    simp [RedirectMode.operator]
  | write current hrest h ih =>
    have hread := openAfter_append_char hfront (by decide) hplain
    rw [List.flatMap_append, text_ofRedirect, ih hread, withoutFreeBlanks_of_not_blank hgreater]
    simp [RedirectMode.operator]
  | @plain c hc hstep hn hr current rest tokens h ih =>
    have hread := openAfter_append_char hfront hc (opened_of_plain hstep)
    have hblank : Text.isBlank c = false := by
      rw [← Bool.not_eq_true]
      exact fun hblank => hn (.inl hblank)
    rw [withoutFreeBlanks_of_not_blank hblank, ih hread]
    simp

/-! ## Words and redirects -/

/-- Whether a word that has been collected up to some groups is collected as a whole by a scan from
its start. -/
def Collected (groups : List Group) (current : Text) : Prop :=
  ∀ rest tokens, Splits groups current rest tokens → Splits [] [] (current ++ rest) tokens

theorem Collected.start : Collected [] [] := fun _ _ h => h

theorem Collected.pair {groups : List Group} {current : Text} (h : Collected groups current)
    (c : Char) : Collected groups (current ++ ['\\', c]) := by
  intro rest tokens hrest
  rw [List.append_assoc]
  exact h _ _ (hrest.pair c)

theorem Collected.keep {groups after : List Group} {current : Text} (h : Collected groups current)
    {c : Char} (hc : c ≠ '\\') (hstep : groupStep groups c = .keep after) :
    Collected after (current ++ [c]) := by
  intro rest tokens hrest
  rw [List.append_assoc]
  exact h _ _ (.keep hc hstep hrest)

theorem Collected.plain {current : Text} (h : Collected [] current) {c : Char} (hc : c ≠ '\\')
    (hstep : groupStep [] c = .plain) (hn : ¬IsBoundary c) (hr : c ≠ '>') :
    Collected [] (current ++ [c]) := by
  intro rest tokens hrest
  rw [List.append_assoc]
  exact h _ _ (.plain hc hstep hn hr hrest)

/-- A collected word at the end of a scan is found by a scan of the word. -/
theorem Collected.tokenize_eq {current : Text} (h : Collected [] current) :
    tokenize current = .ok (ofCurrent current) := by
  have hsplits := h [] _ (.done current)
  rwa [List.append_nil, splits_iff] at hsplits

/-- What a token of a line is. -/
def IsProper : Token → Prop
  | word value => value ≠ [] ∧ tokenize value = .ok [.word value]
  | separator => True
  | redirect digits _ => ∀ c ∈ digits, c.isDigit = true

/-- A collected word is proper. -/
theorem Collected.isProper_ofCurrent {current : Text} (h : Collected [] current) :
    ∀ token ∈ ofCurrent current, token.IsProper := by
  have htokenize := h.tokenize_eq
  unfold ofCurrent at htokenize ⊢
  split
  · exact nofun
  · next hne =>
    rw [if_neg hne] at htokenize
    rw [List.forall_mem_singleton]
    exact ⟨fun hnil => hne (List.isEmpty_iff.2 hnil), htokenize⟩

/-- A collected word and the operator behind it are proper, whether or not the word becomes part of
the operator. -/
theorem Collected.isProper_ofRedirect {current : Text} (h : Collected [] current)
    (mode : RedirectMode) : ∀ token ∈ ofRedirect current mode, token.IsProper := by
  unfold ofRedirect
  split
  · next hdecimal =>
    rw [Text.isDecimal, Bool.and_eq_true] at hdecimal
    rw [List.forall_mem_singleton]
    exact List.all_eq_true.1 hdecimal.2
  · rw [List.forall_mem_append, List.forall_mem_singleton]
    exact ⟨h.isProper_ofCurrent, fun c hc => absurd hc List.not_mem_nil⟩

theorem isProper_ofBoundary (c : Char) : ∀ token ∈ ofBoundary c, token.IsProper := by
  unfold ofBoundary
  split
  · rw [List.forall_mem_singleton]
    trivial
  · exact nofun

/-- All tokens of a line are proper. -/
theorem Splits.isProper {groups : List Group} {current text : Text} {tokens : List Token}
    (h : Splits groups current text tokens) (hcurrent : Collected groups current) :
    ∀ token ∈ tokens, token.IsProper := by
  induction h with
  | done current => exact hcurrent.isProper_ofCurrent
  | pair c h ih => exact ih (hcurrent.pair c)
  | keep hc hstep h ih => exact ih (hcurrent.keep hc hstep)
  | boundary hc current h ih =>
    rw [List.forall_mem_append, List.forall_mem_append]
    exact ⟨⟨hcurrent.isProper_ofCurrent, isProper_ofBoundary _⟩, ih .start⟩
  | append current h ih =>
    rw [List.forall_mem_append]
    exact ⟨hcurrent.isProper_ofRedirect .append, ih .start⟩
  | write current hrest h ih =>
    rw [List.forall_mem_append]
    exact ⟨hcurrent.isProper_ofRedirect .write, ih .start⟩
  | plain hc hstep hn hr h ih => exact ih (hcurrent.plain hc hstep hn hr)

/-! ## Separators -/

/-- Tokens without a separator stand before the first separator. -/
private theorem exists_of_append_eq {found tokens front back : List Token}
    (hfound : .separator ∉ found) (h : found ++ tokens = front ++ .separator :: back) :
    ∃ others, front = found ++ others ∧ tokens = others ++ .separator :: back := by
  rcases List.append_eq_append_iff.1 h with ⟨others, hfront, htokens⟩ | ⟨others, hends, hback⟩
  · exact ⟨others, hfront, htokens⟩
  · cases others with
    | nil =>
      refine ⟨[], ?_, ?_⟩
      · simpa using hends.symm
      · simpa using hback.symm
    | cons other others =>
      obtain ⟨rfl, -⟩ := List.cons.inj hback
      simp [hends] at hfound

theorem separator_not_mem_ofCurrent (current : Text) : .separator ∉ ofCurrent current := by
  unfold ofCurrent
  split <;> simp

theorem separator_not_mem_ofRedirect (current : Text) (mode : RedirectMode) :
    .separator ∉ ofRedirect current mode := by
  unfold ofRedirect
  split
  · simp
  · simp [separator_not_mem_ofCurrent]

/-- A separator is a semicolon up to which and behind which the text is split into the tokens that
stand before it and behind it. -/
theorem Splits.exists_of_separator {groups : List Group} {current text : Text}
    {front back : List Token}
    (h : Splits groups current text (front ++ .separator :: back)) :
    ∃ before after, text = before ++ ';' :: after ∧ Splits groups current before front ∧
      Splits [] [] after back := by
  generalize htokens : front ++ .separator :: back = tokens at h
  induction h generalizing front with
  | done current =>
    refine absurd ?_ (separator_not_mem_ofCurrent current)
    simp [← htokens]
  | pair c h ih =>
    obtain ⟨before, after, rfl, hbefore, hafter⟩ := ih htokens
    exact ⟨'\\' :: c :: before, after, rfl, hbefore.pair c, hafter⟩
  | @keep c hc groups after hstep current rest tokens h ih =>
    obtain ⟨before, after, rfl, hbefore, hafter⟩ := ih htokens
    exact ⟨c :: before, after, rfl, .keep hc hstep hbefore, hafter⟩
  | @boundary c hc current rest tokens h ih =>
    rw [List.append_assoc] at htokens
    obtain ⟨others, rfl, hothers⟩ :=
      exists_of_append_eq (separator_not_mem_ofCurrent current) htokens.symm
    have hinside {others : List Token} (htokens : others ++ .separator :: back = tokens) :
        ∃ before after, c :: rest = before ++ ';' :: after ∧
          Splits [] current before (ofCurrent current ++ ofBoundary c ++ others) ∧
          Splits [] [] after back := by
      obtain ⟨before, after, rfl, hbefore, hafter⟩ := ih htokens
      exact ⟨c :: before, after, rfl, .boundary hc current hbefore, hafter⟩
    by_cases hs : c = ';'
    · subst hs
      cases others with
      | nil =>
        obtain ⟨-, rfl⟩ := List.cons.inj hothers
        exact ⟨[], rest, rfl, by simpa using Splits.done current, h⟩
      | cons other others =>
        obtain ⟨rfl, htail⟩ := List.cons.inj hothers
        simpa [ofBoundary] using hinside htail.symm
    · rw [ofBoundary, if_neg hs] at hothers hinside
      simpa using hinside hothers.symm
  | @append current rest tokens h ih =>
    obtain ⟨others, rfl, hothers⟩ :=
      exists_of_append_eq (separator_not_mem_ofRedirect current .append) htokens.symm
    obtain ⟨before, after, rfl, hbefore, hafter⟩ := ih hothers.symm
    exact ⟨'>' :: '>' :: before, after, rfl, .append current hbefore, hafter⟩
  | @write current rest hrest tokens h ih =>
    obtain ⟨others, rfl, hothers⟩ :=
      exists_of_append_eq (separator_not_mem_ofRedirect current .write) htokens.symm
    obtain ⟨before, after, rfl, hbefore, hafter⟩ := ih hothers.symm
    refine ⟨'>' :: before, after, rfl, .write current ?_ hbefore, hafter⟩
    cases before with
    | nil => simp
    | cons d before => exact hrest
  | @plain c hc hstep hn hr current rest tokens h ih =>
    obtain ⟨before, after, rfl, hbefore, hafter⟩ := ih htokens
    exact ⟨c :: before, after, rfl, .plain hc hstep hn hr hbefore, hafter⟩

/-! ## Lines and their tokens -/

/-- What can be split is a line. -/
theorem isLine_of_tokenize {line : Text} {tokens : List Token} (h : tokenize line = .ok tokens) :
    IsLine line :=
  (isLine_iff_openAfter line).2 ((verdict_scan 0 [] [] line).isOk_iff.1 ⟨tokens, h⟩)

/-- What the tokens of a line keep of it. -/
structure Renders (line : Text) (tokens : List Token) : Prop where
  /-- Put together in order, they are the line without its free blanks. -/
  text_eq : tokens.flatMap Token.text = withoutFreeBlanks [] line
  /-- A word is not empty, and alone it is split into itself. -/
  word : ∀ value, .word value ∈ tokens → value ≠ [] ∧ tokenize value = .ok [.word value]
  /-- The text of a redirect is one of the two operators behind ASCII digits or behind nothing. -/
  redirect : ∀ digits mode, .redirect digits mode ∈ tokens →
    (∀ c ∈ digits, c.isDigit = true) ∧ ∃ operator, (operator = ['>'] ∨ operator = ['>', '>']) ∧
      (Token.redirect digits mode).text = digits ++ operator
  /-- A separator is a semicolon outside all groups and behind no backslash: what stands before it is
  a line, with the tokens before it, and what stands behind it has the tokens behind it. -/
  separator : ∀ front back, tokens = front ++ .separator :: back →
    ∃ before after, line = before ++ ';' :: after ∧ IsLine before ∧
      tokenize before = .ok front ∧ tokenize after = .ok back

/-- Nothing of a line but its free blanks is lost in its tokens, and nothing is added or put in
another place. -/
theorem tokenize_renders {line : Text} {tokens : List Token} (h : tokenize line = .ok tokens) :
    Renders line tokens := by
  have hsplits : Splits [] [] line tokens := splits_iff.2 h
  have hproper := hsplits.isProper .start
  refine ⟨?_, fun value hvalue => hproper _ hvalue, fun digits mode hmem => ⟨hproper _ hmem, ?_⟩, ?_⟩
  · simpa using hsplits.text_eq (openAfter_nil [])
  · cases mode with
    | write => exact ⟨['>'], .inl rfl, rfl⟩
    | append => exact ⟨['>', '>'], .inr rfl, rfl⟩
  · rintro front back rfl
    obtain ⟨before, after, hline, hbefore, hafter⟩ := hsplits.exists_of_separator
    have hfront : tokenize before = .ok front := splits_iff.1 hbefore
    exact ⟨before, after, hline, isLine_of_tokenize hfront, hfront, splits_iff.1 hafter⟩

/-- A line with an escaped and a quoted blank, a semicolon in braces and two redirects. -/
def hasty : Text :=
  [' ', 'a', '\\', ' ', ' ', '2', '>', '>', '"', 'b', ' ', '"', ';', '\\', '1', '>', '\x7b', ';',
    ' ', '\x7d']

theorem tokenize_renders_hasty :
    tokenize hasty = .ok [.word ['a', '\\', ' '], .redirect ['2'] .append,
        .word ['"', 'b', ' ', '"'], .separator, .word ['\\', '1'], .redirect [] .write,
        .word ['\x7b', ';', ' ', '\x7d']] ∧
      Renders hasty [.word ['a', '\\', ' '], .redirect ['2'] .append, .word ['"', 'b', ' ', '"'],
        .separator, .word ['\\', '1'], .redirect [] .write, .word ['\x7b', ';', ' ', '\x7d']] :=
  ⟨rfl, tokenize_renders rfl⟩

end MemShell.Token
