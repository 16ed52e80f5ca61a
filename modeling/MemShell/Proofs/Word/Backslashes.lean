import MemShell.Proofs.Word.Quoting

/-!
# Backslashes

A text can be written as a word with a backslash before every character with a meaning of its own
and before every blank. The word is one token for every text. Main statement: it stands for the text
exactly if a backslash makes each blank of the text literal, which it does for the six blanks of
ASCII that are escapable and for no other blank.
-/

namespace MemShell.Word

/-- The characters with a meaning of their own, the blanks left aside. -/
def significant : List Char :=
  ['\\', ';', '~', '$', '>', '?', '*', '\'', '"', '\x7b', '\x7d']

/-- Whether a character is written behind a backslash. -/
def NeedsBackslash (c : Char) : Prop := Text.isBlank c = true ∨ c ∈ significant

instance : DecidablePred NeedsBackslash := fun _ => inferInstanceAs (Decidable (_ ∨ _))

/-- A character as a part of a word, behind a backslash if it needs one. -/
def backslashChar (c : Char) : Text := if NeedsBackslash c then ['\\', c] else [c]

/-- A text as a word, with a backslash before every character that needs one. -/
def backslashed (text : Text) : Text := text.flatMap backslashChar

/-- A blank that a backslash does not make literal. -/
def IsStubborn (c : Char) : Prop := Text.isBlank c = true ∧ c ∉ escapable

instance : DecidablePred IsStubborn := fun _ => inferInstanceAs (Decidable (_ ∧ _))

/-- What becomes of a character behind a backslash or alone: the backslash stays before a stubborn
blank. -/
def backslashKept (c : Char) : Text := if IsStubborn c then ['\\', c] else [c]

/-- A character with a meaning of its own is escapable. -/
theorem mem_escapable_of_mem_significant {c : Char} (h : c ∈ significant) : c ∈ escapable := by
  have hsublist : significant.Sublist escapable := by decide
  exact hsublist.subset h

/-- A character that needs no backslash differs from all characters with a meaning. -/
theorem ne_of_not_needsBackslash {c d : Char} (h : ¬NeedsBackslash c) (hd : d ∈ significant) :
    c ≠ d := by
  rintro rfl
  exact h (.inr hd)

section Scanning

open Token

/-- A character is added to the word with its backslash or alone. -/
theorem scan_backslashChar (c : Char) (position : Nat) (current rest : Text) :
    scan position [] current (backslashChar c ++ rest) =
      scan (position + (backslashChar c).length) [] (current ++ backslashChar c) rest := by
  by_cases hc : NeedsBackslash c
  · simp only [backslashChar, if_pos hc]
    exact scan_pair position [] current rest c
  · simp only [backslashChar, if_neg hc]
    have hne {d : Char} (hd : d ∈ significant) : c ≠ d := ne_of_not_needsBackslash hc hd
    have hstep : groupStep [] c = .plain :=
      groupStep_nil (hne (by decide)) (hne (by decide)) (hne (by decide)) (hne (by decide))
    have hword : ¬IsBoundary c := by
      rintro (hblank | hseparator)
      · exact hc (.inl hblank)
      · exact hne (by decide) hseparator
    exact scan_plain position current rest (hne (by decide)) hstep hword (hne (by decide))

/-- A text that is not empty is written as a word that is not empty. -/
theorem backslashed_ne_nil {text : Text} (h : text ≠ []) : backslashed text ≠ [] := by
  cases text with
  | nil => exact absurd rfl h
  | cons c text =>
    rw [backslashed, List.flatMap_cons, backslashChar]
    split <;> simp

/-- A text with its backslashes is one word. -/
theorem tokenize_backslashed {text : Text} (h : text ≠ []) :
    tokenize (backslashed text) = .ok [.word (backslashed text)] :=
  tokenize_flatMap scan_backslashChar (backslashed_ne_nil h)

end Scanning

section Resolving

variable (env : Environment) (word : Text)

/-- A character is resolved to itself, but for the backslash that stays before a stubborn blank. -/
theorem resolve_backslashChar (c : Char) (rest : Text) :
    resolve env word [] (backslashChar c ++ rest) =
      (resolve env word [] rest).map (Marked.escape (backslashKept c) ++ ·) := by
  by_cases hc : NeedsBackslash c
  · have hkept : escaped [] c = backslashKept c := by
      simp only [escaped, backslashKept, IsStubborn]
      by_cases hescapable : c ∈ escapable
      · simp [hescapable]
      · rcases hc with hblank | hsignificant
        · simp [hescapable, hblank]
        · exact absurd (mem_escapable_of_mem_significant hsignificant) hescapable
    rw [backslashChar, if_pos hc, List.cons_append, List.singleton_append, resolve, hkept]
  · have hne {d : Char} (hd : d ∈ significant) : c ≠ d := ne_of_not_needsBackslash hc hd
    have hquote : Group.ofQuote? c = none :=
      Token.ofQuote?_eq_none (hne (by decide)) (hne (by decide))
    have hglob : Marked.isGlobChar c = false := by
      have hquestion : c ≠ '?' := hne (by decide)
      have hasterisk : c ≠ '*' := hne (by decide)
      simp [Marked.isGlobChar, hquestion, hasterisk]
    have hplain : ¬IsStubborn c := fun hstubborn => hc (.inl hstubborn.1)
    rw [backslashChar, if_neg hc, backslashKept, if_neg hplain, List.singleton_append,
      resolve.eq_6 _ _ _ _ (hne (by decide)) (hne (by decide)), hquote]
    simp only [hne (show '\x7b' ∈ significant by decide),
      hne (show '\x7d' ∈ significant by decide), hglob, ite_false, Bool.false_eq_true]

/-- A text with its backslashes is marked as the text, but for the backslashes that stay before
stubborn blanks. -/
theorem mark_backslashed {text : Text} (h : text ≠ []) :
    mark env (backslashed text) = .ok (Marked.escape (text.flatMap backslashKept)) := by
  have htilde : (backslashed text).head? ≠ some '~' := by
    cases text with
    | nil => exact absurd rfl h
    | cons c text =>
      rw [backslashed, List.flatMap_cons, backslashChar]
      split
      · simp
      · next hc => simpa using ne_of_not_needsBackslash hc (by decide)
  rw [mark_eq_resolve env htilde, backslashed]
  exact resolve_flatMap env _ (resolve_backslashChar env _) text

end Resolving

/-- Each stubborn blank adds a backslash. -/
theorem length_flatMap_backslashKept (text : Text) :
    (text.flatMap backslashKept).length = text.length + text.countP (decide <| IsStubborn ·) := by
  induction text with
  | nil => rfl
  | cons c text ih =>
    rw [List.flatMap_cons, List.length_append, ih, backslashKept]
    by_cases hc : IsStubborn c
    · simp [hc]
      omega
    · simp [hc]
      omega

/-- Nothing is added to a text exactly if it holds no stubborn blank. -/
theorem flatMap_backslashKept_eq_iff (text : Text) :
    text.flatMap backslashKept = text ↔ ∀ c ∈ text, ¬IsStubborn c := by
  constructor
  · intro heq c hc hstubborn
    have hcount : 0 < text.countP (decide <| IsStubborn ·) :=
      List.countP_pos_iff.2 ⟨c, hc, decide_eq_true hstubborn⟩
    have hlength := length_flatMap_backslashKept text
    rw [heq] at hlength
    omega
  · intro hall
    have hkept : text.flatMap backslashKept = text.flatMap ([·]) :=
      List.flatMap_congr fun c hc => if_neg (hall c hc)
    rw [hkept, List.flatMap_singleton']

/-- A text that is not empty is written with its backslashes as one word, and the word stands for
the text, in every environment and every file system, exactly if every blank of the text is
escapable. -/
theorem expand_backslashed_iff {text : Text} (h : text ≠ []) :
    Token.tokenize (backslashed text) = .ok [.word (backslashed text)] ∧
      ∀ env fs, expand env fs (backslashed text) = .ok [text] ↔
        ∀ c ∈ text, Text.isBlank c = true → c ∈ escapable := by
  refine ⟨tokenize_backslashed h, fun env fs => ?_⟩
  have hne : text.flatMap backslashKept ≠ [] := by
    intro hnil
    have hlength := length_flatMap_backslashKept text
    have hpos := List.length_pos_iff.2 h
    rw [hnil, List.length_nil] at hlength
    omega
  rw [expand_of_mark (mark_backslashed env h) (.inl hne) fs, Except.ok.injEq,
    List.cons.injEq, and_iff_left rfl, flatMap_backslashKept_eq_iff]
  constructor
  · intro hall c hc hblank
    by_contra hescapable
    exact hall c hc ⟨hblank, hescapable⟩
  · intro hall c hc hstubborn
    exact hstubborn.2 (hall c hc hstubborn.1)

theorem expand_backslashed_iff_tabs :
    ['~', '\t', '*', 'ß', '\x7d'] ≠ ([] : Text) ∧
      Token.tokenize (backslashed ['~', '\t', '*', 'ß', '\x7d']) =
        .ok [.word ['\\', '~', '\\', '\t', '\\', '*', 'ß', '\\', '\x7d']] ∧
      expand .empty .empty (backslashed ['~', '\t', '*', 'ß', '\x7d']) =
        .ok [['~', '\t', '*', 'ß', '\x7d']] := by
  have hne : ['~', '\t', '*', 'ß', '\x7d'] ≠ ([] : Text) := List.cons_ne_nil _ _
  have hall : ∀ c ∈ (['~', '\t', '*', 'ß', '\x7d'] : Text),
      (!Text.isBlank c || decide (c ∈ escapable)) = true := List.all_eq_true.1 (by decide)
  obtain ⟨hword, hexpand⟩ := expand_backslashed_iff hne
  refine ⟨hne, hword, (hexpand .empty .empty).2 fun c hc hblank => ?_⟩
  simpa [hblank] using hall c hc

/-- A no-break space ends words like any other blank, but a backslash before it stays. -/
theorem expand_backslashed_noBreakSpace :
    ¬∀ text : Text, text ≠ [] →
      Token.tokenize (backslashed text) = .ok [.word (backslashed text)] ∧
        ∀ env fs, expand env fs (backslashed text) = .ok [text] := by
  intro hall
  have hspace : (['\u00a0'] : Text) ≠ [] := List.cons_ne_nil _ _
  obtain ⟨-, hexpand⟩ := hall ['\u00a0'] hspace
  have hmark : mark .empty (backslashed ['\u00a0']) = .ok (Marked.escape ['\\', '\u00a0']) :=
    mark_backslashed .empty hspace
  have hkept : expand .empty .empty (backslashed ['\u00a0']) = .ok [['\\', '\u00a0']] :=
    expand_of_mark hmark (.inl (List.cons_ne_nil _ _)) .empty
  rw [hexpand] at hkept
  exact absurd hkept (by decide)

end MemShell.Word
