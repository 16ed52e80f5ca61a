import MemShell.Proofs.Word.Phrase

/-!
# What phrases mean

What a phrase means is put together from what its parts mean, each by itself; only whether a part
stands inside braces is handed down. Main statement: resolving the text of a phrase from left to
right, with a stack of open groups, gives what the phrase means, in every environment. So every word
of a line that is marked at all has the meaning of its phrase.
-/

namespace MemShell.Word

open Token

/-! ## Meaning -/

/-- What the rest of a span means. Outside braces a backslash makes the quote of the span literal;
it is kept before anything else, and inside braces before the quote as well. -/
def Span.meaning {quote : Group} (inBraces : Bool) : Span quote → List Part
  | nil => []
  | char c _ rest => .literal [c] :: rest.meaning inBraces
  | pair c rest =>
    .literal (if c = quote.opening ∧ inBraces = false then [c] else ['\\', c]) ::
      rest.meaning inBraces
  | reference _ name _ rest => .value name :: rest.meaning inBraces

/-- What a plain character means: outside braces it may be a wildcard, and else it is literal. -/
def plainMeaning (inBraces : Bool) (c : Char) : Part :=
  if h : inBraces = false ∧ Marked.isGlobChar c = true then .wildcard c h.2 else .literal [c]

/-- What a quote at an end of a span means: inside braces it is kept, and outside it vanishes. -/
def quoteMeaning (inBraces : Bool) (quote : Group) : Part :=
  .literal (if inBraces then [quote.opening] else [])

/-- What a phrase means. A backslash makes an escapable character literal and is kept before any
other, and braces vanish. -/
def Phrase.meaning (inBraces : Bool) : Phrase → List Part
  | nil => []
  | char c _ rest => plainMeaning inBraces c :: rest.meaning inBraces
  | pair c rest => .literal (if c ∈ escapable then [c] else ['\\', c]) :: rest.meaning inBraces
  | reference name _ rest => .value name :: rest.meaning inBraces
  | span quote _ inner rest =>
    quoteMeaning inBraces quote ::
      (inner.meaning inBraces ++ quoteMeaning inBraces quote :: rest.meaning inBraces)
  | group inner rest => inner.meaning true ++ rest.meaning inBraces

/-- What a phrase means as a word. A tilde at its start, which is all of the word or which a slash
follows, is the home directory. -/
def Phrase.wordMeaning : Phrase → List Part
  | char c hc rest =>
    if c = '~' ∧ (rest.text = [] ∨ rest.text.head? = some '/') then .home :: rest.meaning false
    else (char c hc rest).meaning false
  | phrase => phrase.meaning false

/-! ## Resolving -/

section Resolving

variable (env : Environment) (word : Text)

/-- The quotes of a span are never escaped. -/
theorem marked_quoteMeaning (inBraces : Bool) (quote : Group) :
    (quoteMeaning inBraces quote).marked env = keptQuote inBraces quote.opening := by
  cases inBraces <;> cases quote <;> rfl

/-- What a backslash and a character stand for in a quoted span. -/
theorem escaped_quote {quote : Group} (hquote : quote.isQuote = true) (outer : List Group)
    (c : Char) :
    escaped (quote :: outer) c =
      if c = quote.opening ∧ decide (Group.brace ∈ outer) = false then [c] else ['\\', c] := by
  have hne : Group.brace ≠ quote := by
    rintro rfl
    cases hquote
  simp [escaped, hquote, hne]

/-- What a backslash and a character stand for outside quoted spans. -/
theorem escaped_of_opens {groups : List Group} (h : Opens groups) (c : Char) :
    escaped groups c = if c ∈ escapable then [c] else ['\\', c] := by
  cases groups with
  | nil => rfl
  | cons top outer =>
    obtain rfl := h top rfl
    rfl

/-- The text of a span is resolved to what the span means, up to the quote at its end. -/
theorem Span.resolve_text {quote : Group} (hquote : quote.isQuote = true) (outer : List Group)
    (span : Span quote) (h : span.Spaced) (rest : Text) :
    resolve env word (quote :: outer) (span.text ++ quote.opening :: rest) =
      (resolve env word (quote :: outer) (quote.opening :: rest)).map
        (Part.assemble env (span.meaning (decide (.brace ∈ outer))) ++ ·) := by
  induction span with
  | nil => exact (map_nil_append _).symm
  | char c hc after ih =>
    have hstep (text : Text) : resolve env word (quote :: outer) (c :: text) =
        (resolve env word (quote :: outer) text).map (Marked.escape [c] ++ ·) := by
      by_cases hdollar : c = '$'
      · obtain rfl := hc.dollar hdollar
        rw [hdollar, resolve]
        rfl
      · exact resolve_within env word text quote hquote outer hc.ne_backslash hc.ne_quote hdollar
    rw [Span.text, List.cons_append, hstep, ih h, map_append_map]
    rfl
  | pair c after ih =>
    rw [Span.text, List.cons_append, List.cons_append, resolve, ih h, map_append_map,
      escaped_quote hquote]
    rfl
  | reference hdouble name hname after ih =>
    have hends : EndsName (after.text ++ quote.opening :: rest) :=
      h.1.append (endsName_opening quote rest)
    rw [Span.text, List.append_assoc,
      resolve_reference hname env word (by simpa using hdouble) (endsName_iff.1 hends), ih h.2,
      map_append_map]
    rfl

/-- Where groups are opened, a plain character is resolved to what it means. -/
theorem resolve_plain {groups : List Group} (hopens : Opens groups) {c : Char} (hc : IsPlain c)
    (rest : Text) :
    resolve env word groups (c :: rest) =
      (resolve env word groups rest).map
        ((plainMeaning (decide (.brace ∈ groups)) c).marked env ++ ·) := by
  cases groups with
  | nil =>
    rw [resolve.eq_6 _ _ _ _ hc.ne_backslash hc.ne_dollar, hc.ofQuote?_eq]
    simp only [hc.ne_opening, hc.ne_closing, ite_false]
    cases hglob : Marked.isGlobChar c with
    | true => simp [plainMeaning, hglob, Part.marked]
    | false => simp [plainMeaning, hglob, Part.marked, Part.text]
  | cons top outer =>
    obtain rfl := hopens top rfl
    rw [resolve.eq_7 _ _ _ _ _ hc.ne_backslash hc.ne_dollar, hc.ofQuote?_eq]
    simp [hc.ne_opening, hc.ne_closing, plainMeaning, Part.marked, Part.text]

/-- The text of a phrase is resolved to what the phrase means, wherever groups are opened and
whatever follows that does not continue a name. -/
theorem Phrase.resolve_text (phrase : Phrase) (h : phrase.Spaced) {groups : List Group}
    (hopens : Opens groups) {rest : Text} (hrest : EndsName rest) :
    resolve env word groups (phrase.text ++ rest) =
      (resolve env word groups rest).map
        (Part.assemble env (phrase.meaning (decide (.brace ∈ groups))) ++ ·) := by
  induction phrase generalizing groups rest with
  | nil => exact (map_nil_append _).symm
  | char c hc after ih =>
    rw [Phrase.text, List.cons_append, resolve_plain env word hopens hc, ih h hopens hrest,
      map_append_map]
    rfl
  | pair c after ih =>
    rw [Phrase.text, List.cons_append, List.cons_append, resolve, ih h hopens hrest,
      map_append_map, escaped_of_opens hopens]
    rfl
  | reference name hname after ih =>
    have hsingle : groups.head? ≠ some .single := fun hhead => by cases hopens _ hhead
    have hends := endsName_iff.1 (h.1.append hrest)
    rw [Phrase.text, List.append_assoc, resolve_reference hname env word hsingle hends,
      ih h.2 hopens hrest, map_append_map]
    rfl
  | span quote hquote inner after ih =>
    have hinBraces : (!groups.isEmpty) = decide (Group.brace ∈ groups) := by
      cases groups with
      | nil => rfl
      | cons top outer =>
        obtain rfl := hopens top rfl
        simp
    rw [Phrase.text, List.cons_append, List.append_assoc, List.cons_append,
      resolve_open env word _ (ofQuote?_opening hquote) hopens,
      inner.resolve_text env word hquote groups h.1, resolve_close env word _ quote hquote,
      ih h.2 hopens hrest, hinBraces, map_append_map, map_append_map, map_append_map]
    simp [Phrase.meaning, marked_quoteMeaning]
  | group inner after ihinner ih =>
    have hinside : Opens (.brace :: groups) := fun top htop => (Option.some.inj htop).symm
    rw [Phrase.text, List.cons_append, List.append_assoc, List.cons_append,
      resolve_group env word _ hopens, ihinner h.1 hinside (endsName_cons (by decide) _),
      resolve_group_end, ih h.2 hopens hrest, map_append_map]
    simp [Phrase.meaning]

end Resolving

/-! ## Words -/

/-- The text of a phrase is marked as what the phrase means as a word. -/
theorem Phrase.mark_text (env : Environment) (phrase : Phrase) (h : phrase.Spaced) :
    mark env phrase.text = .ok (Part.assemble env phrase.wordMeaning) := by
  have hwhole (part : Phrase) (hpart : part.Spaced) (word : Text) :
      resolve env word [] part.text = .ok (Part.assemble env (part.meaning false)) := by
    have hopens : Opens [] := nofun
    have hends : EndsName [] := nofun
    have hresolved := part.resolve_text env word hpart hopens hends
    rw [List.append_nil] at hresolved
    rw [hresolved, resolve]
    simp [Except.map]
  have hplain (hstart : ∀ rest, phrase.text = '~' :: rest →
      ¬(rest = [] ∨ rest.head? = some '/')) :
      mark env phrase.text = .ok (Part.assemble env (phrase.meaning false)) :=
    (mark_of_not_home env hstart).trans (hwhole phrase h _)
  cases phrase with
  | char c hc rest =>
    rw [wordMeaning]
    split
    · next hhome =>
      obtain ⟨rfl, hrest⟩ := hhome
      rw [Phrase.text, mark_home env hrest, hwhole rest h]
      rfl
    · next hhome =>
      refine hplain fun after hafter hrest => hhome ?_
      obtain ⟨rfl, rfl⟩ := List.cons.inj hafter
      exact ⟨rfl, hrest⟩
  | nil | pair | reference | group => exact hplain fun rest hrest => by cases hrest
  | span quote hquote inner after =>
    refine hplain fun rest hrest => ?_
    have htilde : quote.opening ≠ '~' := by cases quote <;> decide
    exact absurd (List.cons.inj hrest).1 htilde

/-- Marking computes the meaning of every word, in every environment. The text of a phrase is marked,
and the marked text denotes what the parts of the phrase mean, one after the other. And every word of
a line is the text of a phrase, if it is marked at all. -/
theorem mark_denotes_meaning (env : Environment) :
    (∀ phrase : Phrase, phrase.Spaced →
      (mark env phrase.text).map Marked.decode =
        .ok (phrase.wordMeaning.flatMap (Part.glyphs env))) ∧
      ∀ line tokens word marked, tokenize line = .ok tokens → .word word ∈ tokens →
        mark env word = .ok marked → ∃ phrase : Phrase, phrase.Spaced ∧ phrase.text = word := by
  constructor
  · intro phrase hspaced
    rw [phrase.mark_text env hspaced]
    exact congrArg Except.ok (Part.decode_assemble env phrase.wordMeaning)
  · intro line tokens word marked hline hword hmark
    exact exists_phrase_of_mark hline hword hmark

/-- An environment with a home directory and with a variable that holds an asterisk. -/
def housed : Environment := ⟨⟨[(['h', 'o', 'm', 'e'], ['/', 'h']), (['v'], ['*'])], by decide⟩, []⟩

/-- A name of one letter. -/
theorem isVariableName_v : IsVariableName ['v'] := ⟨List.cons_ne_nil _ _, List.all_eq_true.1 rfl⟩

/-- A word with a tilde, a wildcard, and a span in single quotes that stands once outside braces and
once inside, before a span in double quotes. -/
def layered : Phrase :=
  let quoted : Span .single := .char '$' (by decide) (.pair '\'' .nil)
  let inBraces : Phrase :=
    .char '*' (by decide) (.pair '?' (.span .single rfl quoted
      (.span .double rfl (.reference (by decide) ['v'] isVariableName_v .nil) .nil)))
  .char '~' (by decide) (.char '/' (by decide) (.char '*' (by decide) (.pair 'q'
    (.span .single rfl quoted (.group inBraces (.reference ['v'] isVariableName_v .nil))))))

theorem mark_denotes_meaning_layered :
    layered.Spaced ∧
      layered.text = ['~', '/', '*', '\\', 'q', '\'', '$', '\\', '\'', '\'', '\x7b', '*', '\\',
        '?', '\'', '$', '\\', '\'', '\'', '"', '$', 'v', '"', '\x7d', '$', 'v'] ∧
      (mark housed layered.text).map Marked.decode =
        .ok (['/', 'h', '/'].map (⟨·, false⟩) ++ [⟨'*', true⟩] ++
          ['\\', 'q', '$', '\'', '*', '?', '\'', '$', '\\', '\'', '\'', '"', '*', '"', '*'].map
            (⟨·, false⟩)) ∧
      tokenize layered.text = .ok [.word layered.text] ∧
      ∃ phrase : Phrase, phrase.Spaced ∧ phrase.text = layered.text := by
  have hspaced : layered.Spaced := by decide
  have hline : tokenize layered.text = .ok [.word layered.text] := rfl
  obtain ⟨hmeaning, hphrase⟩ := mark_denotes_meaning housed
  refine ⟨hspaced, rfl, ?_, hline, ?_⟩
  · exact hmeaning layered hspaced
  · exact hphrase _ _ _ _ hline (List.mem_singleton_self _) (layered.mark_text housed hspaced)

end MemShell.Word
