import MemShell.Proofs.Token.Splitting

/-!
# Open groups

The groups that are open at a place of a line are found by reading the line up to there. Every word
of a line that can be split is read from no group to no group.
-/

namespace MemShell.Token

/-- The groups that are open after a character, a backslash left aside. -/
def opened (groups : List Group) (c : Char) : Option (List Group) :=
  match groupStep groups c with
  | .keep after => some after
  | .plain => some []
  | .refuse _ => none

/-- The opening character of a quoted span opens that span. -/
theorem ofQuote?_opening {quote : Group} (h : quote.isQuote = true) :
    Group.ofQuote? quote.opening = some quote := by
  cases quote with
  | brace => cases h
  | single | double => rfl

/-- The span that a quote opens is opened by that quote. -/
theorem opening_of_ofQuote? {c : Char} {quote : Group} (h : Group.ofQuote? c = some quote) :
    c = quote.opening ∧ quote.isQuote = true := by
  unfold Group.ofQuote? at h
  split at h <;> cases h <;> exact ⟨rfl, rfl⟩

/-- Outside all groups every opening character opens its group, and a closing brace is refused. -/
theorem opened_nil (c : Char) :
    opened [] c =
      match Group.ofQuote? c with
      | some quote => some [quote]
      | none => if c = '\x7b' then some [.brace] else if c = '\x7d' then none else some [] := by
  cases hq : Group.ofQuote? c with
  | some quote => simp [opened, groupStep, hq]
  | none =>
    simp only [opened, groupStep, hq]
    by_cases ho : c = '\x7b'
    · simp [ho]
    · by_cases hc : c = '\x7d' <;> simp [ho, hc]

/-- Inside braces every opening character opens its group, and a closing brace closes them. -/
theorem opened_brace (outer : List Group) (c : Char) :
    opened (.brace :: outer) c =
      match Group.ofQuote? c with
      | some quote => some (quote :: .brace :: outer)
      | none =>
        if c = '\x7b' then some (.brace :: .brace :: outer)
        else if c = '\x7d' then some outer
        else some (.brace :: outer) := by
  have hbrace : Group.brace.isQuote = false := rfl
  cases hq : Group.ofQuote? c with
  | some quote =>
    have hne : Group.brace ≠ quote := by
      rintro rfl
      exact Bool.noConfusion (opening_of_ofQuote? hq).2
    simp [opened, groupStep, hq, hne, hbrace]
  | none =>
    simp only [opened, groupStep, hq]
    by_cases ho : c = '\x7b'
    · simp [ho, hbrace]
    · by_cases hc : c = '\x7d' <;> simp [ho, hc]

/-- Inside a quoted span only its own quote changes the groups, and a closing brace is refused if
the span stands in braces. -/
theorem opened_quote {quote : Group} (h : quote.isQuote = true) (outer : List Group) (c : Char) :
    opened (quote :: outer) c =
      if c = quote.opening then some outer
      else if c = '\x7d' ∧ .brace ∈ outer then none
      else some (quote :: outer) := by
  have hbrace : Group.brace ≠ quote := by
    rintro rfl
    cases h
  cases hq : Group.ofQuote? c with
  | some other =>
    obtain ⟨rfl, hother⟩ := opening_of_ofQuote? hq
    have hclose : other.opening ≠ '\x7d' := by
      cases other with
      | brace => cases hother
      | single | double => decide
    by_cases heq : quote = other
    · subst heq
      simp [opened, groupStep, hq]
    · have hne : other.opening ≠ quote.opening := by
        intro hopening
        rw [hopening, ofQuote?_opening h] at hq
        exact heq (Option.some.inj hq)
      simp [opened, groupStep, hq, heq, hne, hclose, h]
  | none =>
    have hne : c ≠ quote.opening := by
      rintro rfl
      rw [ofQuote?_opening h] at hq
      cases hq
    simp only [opened, groupStep, hq, hne, ite_false]
    by_cases ho : c = '\x7b'
    · simp [ho, h]
    · by_cases hc : c = '\x7d'
      · by_cases hmem : Group.brace ∈ outer <;> simp [hc, hbrace, hbrace.symm, hmem]
      · simp [ho, hc]

/-- The groups that are open after a text, which is read in whole backslash pairs. -/
def openAfter (groups : List Group) : Text → Option (List Group)
  | [] => some groups
  | c :: rest =>
    if c = '\\' then
      match rest with
      | [] => none
      | _ :: after => openAfter groups after
    else
      match opened groups c with
      | some inner => openAfter inner rest
      | none => none

@[simp] theorem openAfter_nil (groups : List Group) : openAfter groups [] = some groups := rfl

@[simp] theorem openAfter_pair (groups : List Group) (c : Char) (rest : Text) :
    openAfter groups ('\\' :: c :: rest) = openAfter groups rest := by
  rw [openAfter, if_pos rfl]

theorem openAfter_cons {c : Char} (hc : c ≠ '\\') (groups : List Group) (rest : Text) :
    openAfter groups (c :: rest) = (opened groups c).bind fun inner => openAfter inner rest := by
  rw [openAfter.eq_def]
  simp only [hc, ite_false]
  cases opened groups c <;> rfl

/-- Reading goes on from the groups that are open. -/
theorem openAfter_append {groups inner : List Group} {front : Text}
    (h : openAfter groups front = some inner) (back : Text) :
    openAfter groups (front ++ back) = openAfter inner back := by
  fun_induction openAfter groups front with
  | case1 groups => cases h; rfl
  | case2 => cases h
  | case3 groups c rest ih => rw [List.cons_append, List.cons_append, openAfter_pair, ih h]
  | case4 groups c rest hc after hstep ih =>
    rw [List.cons_append, openAfter_cons hc, hstep, Option.bind_some, ih h]
  | case5 => cases h

/-- Reading a pair behind a text changes no groups. -/
theorem openAfter_append_pair {front : Text} {groups : List Group}
    (h : openAfter [] front = some groups) (c : Char) :
    openAfter [] (front ++ ['\\', c]) = some groups := by
  rw [openAfter_append h, openAfter_pair, openAfter_nil]

/-- Reading a character behind a text goes on from the groups that it leaves open. -/
theorem openAfter_append_char {front : Text} {groups after : List Group}
    (h : openAfter [] front = some groups) {c : Char} (hc : c ≠ '\\')
    (hopened : opened groups c = some after) : openAfter [] (front ++ [c]) = some after := by
  rw [openAfter_append h, openAfter_cons hc, hopened, Option.bind_some, openAfter_nil]

theorem opened_of_keep {groups after : List Group} {c : Char}
    (h : groupStep groups c = .keep after) : opened groups c = some after := by
  rw [opened, h]

theorem opened_of_plain {groups : List Group} {c : Char} (h : groupStep groups c = .plain) :
    opened groups c = some [] := by
  rw [opened, h]

/-- Only the collected word can come out of a collected word. -/
theorem eq_of_mem_ofCurrent {current word : Text} (h : .word word ∈ ofCurrent current) :
    word = current := by
  unfold ofCurrent at h
  split at h <;> simp_all

/-- Only the collected word can come out of a redirect operator. -/
theorem eq_of_mem_ofRedirect {current word : Text} {mode : RedirectMode}
    (h : .word word ∈ ofRedirect current mode) : word = current := by
  unfold ofRedirect at h
  split at h
  · simp at h
  · exact eq_of_mem_ofCurrent (by simpa using h)

/-- No word comes out of a boundary. -/
theorem word_not_mem_ofBoundary (word : Text) (c : Char) : .word word ∉ ofBoundary c := by
  unfold ofBoundary
  split <;> simp

/-- Every word of a line is read from no group to no group. The collected word is read up to the
groups that are open, and it is given out outside all groups only. -/
theorem Splits.openAfter_of_mem {groups : List Group} {current text : Text} {tokens : List Token}
    (h : Splits groups current text tokens) (hcurrent : openAfter [] current = some groups)
    {word : Text} (hword : .word word ∈ tokens) : openAfter [] word = some [] := by
  induction h with
  | done current => rwa [eq_of_mem_ofCurrent hword]
  | pair c h ih => exact ih (openAfter_append_pair hcurrent c) hword
  | keep hc hstep h ih =>
    exact ih (openAfter_append_char hcurrent hc (opened_of_keep hstep)) hword
  | boundary hc current h ih =>
    rcases List.mem_append.1 hword with hmem | hmem
    · rcases List.mem_append.1 hmem with hmem | hmem
      · rwa [eq_of_mem_ofCurrent hmem]
      · exact absurd hmem (word_not_mem_ofBoundary _ _)
    · exact ih (openAfter_nil []) hmem
  | append current h ih | write current hrest h ih =>
    rcases List.mem_append.1 hword with hmem | hmem
    · rwa [eq_of_mem_ofRedirect hmem]
    · exact ih (openAfter_nil []) hmem
  | plain hc hstep hn hr h ih =>
    exact ih (openAfter_append_char hcurrent hc (opened_of_plain hstep)) hword

/-- Every word of a line that can be split closes the groups that it opens. -/
theorem openAfter_word {line : Text} {tokens : List Token} (h : tokenize line = .ok tokens)
    {word : Text} (hword : .word word ∈ tokens) : openAfter [] word = some [] :=
  (splits_iff.2 h).openAfter_of_mem (openAfter_nil []) hword

end MemShell.Token
