import Mathlib.Data.List.TakeWhile
import MemShell.Proofs.Token.Grammar
import MemShell.Proofs.Word.Groups
import MemShell.Proofs.Word.References

/-!
# Phrases

A phrase is a word as a tree: plain characters, backslash pairs, references to variables, quoted
spans, and brace groups that hold phrases again. Every word of a line is the text of a phrase, unless
it holds a dollar sign that has to start a reference and does not.
-/

namespace MemShell.Word

open Token

/-! ## Syntax -/

/-- A character that stands for itself in a quoted span. -/
structure IsSpanChar (quote : Group) (c : Char) : Prop where
  /-- It is no backslash. -/
  ne_backslash : c ≠ '\\'
  /-- It is not the quote of the span. -/
  ne_quote : c ≠ quote.opening
  /-- Only in single quotes it may be a dollar sign. -/
  dollar : c = '$' → quote = .single

instance (quote : Group) (c : Char) : Decidable (IsSpanChar quote c) :=
  decidable_of_iff (c ≠ '\\' ∧ c ≠ quote.opening ∧ (c = '$' → quote = .single))
    ⟨fun ⟨hb, hq, hd⟩ => ⟨hb, hq, hd⟩, fun ⟨hb, hq, hd⟩ => ⟨hb, hq, hd⟩⟩

/-- The text of a quoted span, part by part. -/
inductive Span (quote : Group)
  /-- The span ends. -/
  | nil
  /-- A character that stands for itself. -/
  | char (c : Char) (hc : IsSpanChar quote c) (rest : Span quote)
  /-- A backslash and the character behind it. -/
  | pair (c : Char) (rest : Span quote)
  /-- A reference to a variable, which single quotes do not hold. -/
  | reference (hquote : quote ≠ .single) (name : Text) (hname : IsVariableName name)
    (rest : Span quote)

/-- A character outside quoted spans that has no part in groups, pairs and references. -/
structure IsPlain (c : Char) : Prop extends IsOrdinary c where
  /-- It is no dollar sign. -/
  ne_dollar : c ≠ '$'

instance (c : Char) : Decidable (IsPlain c) :=
  decidable_of_iff
    (c ≠ '\\' ∧ Group.ofQuote? c = none ∧ c ≠ '\x7b' ∧ c ≠ '\x7d' ∧ c ≠ '$')
    ⟨fun ⟨hb, hq, ho, hc, hd⟩ => ⟨⟨hb, hq, ho, hc⟩, hd⟩,
      fun ⟨⟨hb, hq, ho, hc⟩, hd⟩ => ⟨hb, hq, ho, hc, hd⟩⟩

/-- A word, part by part. -/
inductive Phrase
  /-- The word or the group ends. -/
  | nil
  /-- A plain character. -/
  | char (c : Char) (hc : IsPlain c) (rest : Phrase)
  /-- A backslash and the character behind it. -/
  | pair (c : Char) (rest : Phrase)
  /-- A reference to a variable. -/
  | reference (name : Text) (hname : IsVariableName name) (rest : Phrase)
  /-- A quoted span. -/
  | span (quote : Group) (hquote : quote.isQuote = true) (inner : Span quote) (rest : Phrase)
  /-- A brace group. -/
  | group (inner rest : Phrase)

/-- The text of the rest of a span. -/
def Span.text {quote : Group} : Span quote → Text
  | nil => []
  | char c _ rest => c :: rest.text
  | pair c rest => '\\' :: c :: rest.text
  | reference _ name _ rest => Word.reference name ++ rest.text

/-- The text of a phrase. -/
def Phrase.text : Phrase → Text
  | nil => []
  | char c _ rest => c :: rest.text
  | pair c rest => '\\' :: c :: rest.text
  | reference name _ rest => Word.reference name ++ rest.text
  | span quote _ inner rest => quote.opening :: (inner.text ++ quote.opening :: rest.text)
  | group inner rest => '\x7b' :: (inner.text ++ '\x7d' :: rest.text)

/-- Whether a text cannot be the continuation of a name. -/
def EndsName (text : Text) : Prop := ∀ c ∈ text.head?, Environment.isNameChar c = false

instance (text : Text) : Decidable (EndsName text) :=
  decidable_of_iff _ (variableName_eq_nil_iff text)

/-- Whether no reference of a span is followed by a further character of a name. -/
def Span.Spaced {quote : Group} : Span quote → Prop
  | nil => True
  | char _ _ rest => rest.Spaced
  | pair _ rest => rest.Spaced
  | reference _ _ _ rest => EndsName rest.text ∧ rest.Spaced

/-- Whether no reference of a phrase is followed by a further character of a name. -/
def Phrase.Spaced : Phrase → Prop
  | nil => True
  | char _ _ rest => rest.Spaced
  | pair _ rest => rest.Spaced
  | reference _ _ rest => EndsName rest.text ∧ rest.Spaced
  | span _ _ inner rest => inner.Spaced ∧ rest.Spaced
  | group inner rest => inner.Spaced ∧ rest.Spaced

instance Span.decidableSpaced {quote : Group} : (span : Span quote) → Decidable span.Spaced
  | nil => .isTrue trivial
  | char _ _ rest => rest.decidableSpaced
  | pair _ rest => rest.decidableSpaced
  | reference _ _ _ rest =>
    have := rest.decidableSpaced
    inferInstanceAs (Decidable (_ ∧ _))

instance Phrase.decidableSpaced : (phrase : Phrase) → Decidable phrase.Spaced
  | nil => .isTrue trivial
  | char _ _ rest => rest.decidableSpaced
  | pair _ rest => rest.decidableSpaced
  | reference _ _ rest =>
    have := rest.decidableSpaced
    inferInstanceAs (Decidable (_ ∧ _))
  | span _ _ inner rest =>
    have := rest.decidableSpaced
    inferInstanceAs (Decidable (inner.Spaced ∧ _))
  | group inner rest =>
    have := inner.decidableSpaced
    have := rest.decidableSpaced
    inferInstanceAs (Decidable (_ ∧ _))

/-! ## Ends of names -/

/-- A name ends where a text ends or a character follows that is in no name. -/
theorem endsName_iff {text : Text} : EndsName text ↔ variableName text = [] :=
  (variableName_eq_nil_iff text).symm

theorem endsName_cons {c : Char} (h : Environment.isNameChar c = false) (rest : Text) :
    EndsName (c :: rest) := by
  intro d hd
  obtain rfl : c = d := Option.some.inj hd
  exact h

theorem EndsName.append {front back : Text} (hfront : EndsName front) (hback : EndsName back) :
    EndsName (front ++ back) := by
  cases front with
  | nil => exact hback
  | cons c front => exact endsName_cons (hfront c rfl) _

theorem endsName_opening (quote : Group) (rest : Text) : EndsName (quote.opening :: rest) :=
  endsName_cons (by cases quote <;> decide) rest

/-- A name that has ended is not read over. -/
theorem afterName_of_endsName {text : Text} (h : EndsName text) : afterName text = text := by
  cases text with
  | nil => rfl
  | cons c rest => simp [afterName, h c rfl]

/-- A name is read over up to its end. -/
theorem endsName_afterName (text : Text) : EndsName (afterName text) := by
  intro c hc
  have hhead := List.head?_dropWhile_not Environment.isNameChar text
  rw [afterName] at hc
  rwa [Option.mem_def.1 hc] at hhead

/-- The longest name at the start of a text is a name, if there is one. -/
theorem isVariableName_variableName {text : Text} (h : variableName text ≠ []) :
    IsVariableName (variableName text) :=
  ⟨h, fun _ => List.mem_takeWhile_imp⟩

/-- A dollar sign before a name is a reference to it. -/
theorem reference_append_afterName (text : Text) :
    reference (variableName text) ++ afterName text = '$' :: text := by
  rw [reference, List.cons_append, variableName, afterName, List.takeWhile_append_dropWhile]

/-! ## Words as phrases -/

/-- A bare dollar sign of a part that ends a name is one of the whole. -/
theorem HoldsBareDollar.append_left {groups : List Group} {front : Text}
    (h : HoldsBareDollar groups front) {back : Text} (hback : EndsName back) :
    HoldsBareDollar groups (front ++ back) := by
  obtain ⟨before, inner, after, rfl, hbefore, hinner, hafter⟩ := h
  exact ⟨before, inner, after ++ back, by simp, hbefore, hinner, EndsName.append hafter hback⟩

/-- A bare dollar sign of the rest is one of the whole. -/
theorem HoldsBareDollar.append_right {groups inner : List Group} {front : Text}
    (hfront : openAfter groups front = some inner) {back : Text}
    (h : HoldsBareDollar inner back) : HoldsBareDollar groups (front ++ back) := by
  obtain ⟨before, innermost, after, rfl, hbefore, hinnermost, hafter⟩ := h
  refine ⟨front ++ before, innermost, after, (List.append_assoc _ _ _).symm, ?_, hinnermost, hafter⟩
  rw [openAfter_append hfront, hbefore]

/-- The rest of a span behind a name is a span. -/
theorem Span.exists_afterName {quote : Group} (span : Span quote) (h : span.Spaced) :
    ∃ rest : Span quote, rest.Spaced ∧ rest.text = afterName span.text := by
  induction span with
  | nil => exact ⟨.nil, trivial, rfl⟩
  | char c hc after ih =>
    by_cases hname : Environment.isNameChar c = true
    · obtain ⟨rest, hrest, htext⟩ := ih h
      exact ⟨rest, hrest, by simp [Span.text, htext, afterName, hname]⟩
    · exact ⟨.char c hc after, h, by simp [Span.text, afterName, hname]⟩
  | pair c after ih => exact ⟨.pair c after, h, rfl⟩
  | reference hquote name hname after ih => exact ⟨.reference hquote name hname after, h, rfl⟩

/-- The rest of a phrase behind a name is a phrase. -/
theorem Phrase.exists_afterName (phrase : Phrase) (h : phrase.Spaced) :
    ∃ rest : Phrase, rest.Spaced ∧ rest.text = afterName phrase.text := by
  induction phrase with
  | nil => exact ⟨.nil, trivial, rfl⟩
  | char c hc after ih =>
    by_cases hname : Environment.isNameChar c = true
    · obtain ⟨rest, hrest, htext⟩ := ih h
      exact ⟨rest, hrest, by simp [Phrase.text, htext, afterName, hname]⟩
    · exact ⟨.char c hc after, h, by simp [Phrase.text, afterName, hname]⟩
  | pair c after ih => exact ⟨.pair c after, h, rfl⟩
  | reference name hname after ih => exact ⟨.reference name hname after, h, rfl⟩
  | span quote hquote inner after =>
    exact ⟨.span quote hquote inner after, h, (afterName_of_endsName (endsName_opening _ _)).symm⟩
  | group inner after => exact ⟨.group inner after, h, rfl⟩

/-- A dollar sign before a span that starts with a name starts a reference. -/
theorem Span.exists_reference {quote : Group} (hquote : quote ≠ .single) {rest : Span quote}
    (h : rest.Spaced) (hname : variableName rest.text ≠ []) :
    ∃ span : Span quote, span.Spaced ∧ span.text = '$' :: rest.text := by
  obtain ⟨after, hafter, htext⟩ := rest.exists_afterName h
  refine ⟨.reference hquote _ (isVariableName_variableName hname) after, ⟨?_, hafter⟩, ?_⟩
  · rw [htext]
    exact endsName_afterName rest.text
  · rw [Span.text, htext, reference_append_afterName]

/-- A dollar sign before a phrase that starts with a name starts a reference. -/
theorem Phrase.exists_reference {rest : Phrase} (h : rest.Spaced)
    (hname : variableName rest.text ≠ []) :
    ∃ phrase : Phrase, phrase.Spaced ∧ phrase.text = '$' :: rest.text := by
  obtain ⟨after, hafter, htext⟩ := rest.exists_afterName h
  refine ⟨.reference _ (isVariableName_variableName hname) after, ⟨?_, hafter⟩, ?_⟩
  · rw [htext]
    exact endsName_afterName rest.text
  · rw [Phrase.text, htext, reference_append_afterName]

/-- The text of a span that holds no bare dollar sign is that of a span as a tree. -/
theorem exists_span {quote : Group} (hquote : quote.isQuote = true) {outer : List Group}
    {text : Text} (h : SpanText (decide (.brace ∈ outer)) quote.opening text)
    (hbare : ¬HoldsBareDollar (quote :: outer) text) :
    ∃ span : Span quote, span.Spaced ∧ span.text = text := by
  induction h with
  | nil => exact ⟨.nil, trivial, rfl⟩
  | pair c h ih =>
    obtain ⟨rest, hrest, rfl⟩ := ih (by rwa [holdsBareDollar_pair] at hbare)
    exact ⟨.pair c rest, hrest, rfl⟩
  | @char c hbackslash hne hbrace text h ih =>
    have hopened : opened (quote :: outer) c = some (quote :: outer) := by
      have hclose : ¬(c = '\x7d' ∧ .brace ∈ outer) := fun hboth =>
        hbrace (decide_eq_true hboth.2) hboth.1
      rw [opened_quote hquote, if_neg hne, if_neg hclose]
    by_cases hdollar : c = '$' ∧ quote ≠ .single
    · obtain ⟨rfl, hdouble⟩ := hdollar
      have hname : variableName text ≠ [] := fun hnone =>
        hbare ⟨[], quote :: outer, text, rfl, rfl, by simpa using hdouble, endsName_iff.2 hnone⟩
      obtain ⟨rest, hrest, rfl⟩ :=
        ih (by rwa [holdsBareDollar_cons hbackslash hopened fun _ _ => hname] at hbare)
      exact Span.exists_reference hdouble hrest hname
    · have hsingle : c = '$' → quote = .single := fun hc => by
        by_contra hdouble
        exact hdollar ⟨hc, hdouble⟩
      obtain ⟨rest, hrest, rfl⟩ := ih (by
        rwa [holdsBareDollar_cons hbackslash hopened fun hc hhead =>
          absurd (congrArg some (hsingle hc)) hhead] at hbare)
      exact ⟨.char c ⟨hbackslash, hne, hsingle⟩ rest, hrest, rfl⟩

/-- A balanced text that holds no bare dollar sign is the text of a phrase. -/
theorem exists_phrase {inBraces : Bool} {text : Text} (h : Balanced inBraces text)
    {groups : List Group} (hopens : Opens groups) (hbraces : inBraces = decide (.brace ∈ groups))
    (hbare : ¬HoldsBareDollar groups text) :
    ∃ phrase : Phrase, phrase.Spaced ∧ phrase.text = text := by
  induction h generalizing groups with
  | nil => exact ⟨.nil, trivial, rfl⟩
  | @char inBraces c hc text h ih =>
    have hopened := hopens.ordinary hc
    by_cases hdollar : c = '$'
    · subst hdollar
      have hsingle : groups.head? ≠ some .single := fun hhead => by cases hopens _ hhead
      have hname : variableName text ≠ [] := fun hnone =>
        hbare ⟨[], groups, text, rfl, rfl, hsingle, endsName_iff.2 hnone⟩
      rw [holdsBareDollar_cons hc.ne_backslash hopened fun _ _ => hname] at hbare
      obtain ⟨rest, hrest, rfl⟩ := ih hopens hbraces hbare
      exact Phrase.exists_reference hrest hname
    · rw [holdsBareDollar_cons hc.ne_backslash hopened fun heq => absurd heq hdollar] at hbare
      obtain ⟨rest, hrest, rfl⟩ := ih hopens hbraces hbare
      exact ⟨.char c ⟨hc, hdollar⟩ rest, hrest, rfl⟩
  | pair c h ih =>
    rw [holdsBareDollar_pair] at hbare
    obtain ⟨rest, hrest, rfl⟩ := ih hopens hbraces hbare
    exact ⟨.pair c rest, hrest, rfl⟩
  | @span inBraces quote hquote inner text hinner h ih =>
    subst hbraces
    have hbackslash : quote.opening ≠ '\\' := by cases quote <;> decide
    have hdollar : quote.opening ≠ '$' := by cases quote <;> decide
    have hread := openAfter_of_spanText hquote hinner
    have hclosed : opened (quote :: groups) quote.opening = some groups := by
      rw [opened_quote hquote, if_pos rfl]
    rw [holdsBareDollar_cons hbackslash (hopens.quote hquote) fun heq => absurd heq hdollar] at hbare
    have hinside : ¬HoldsBareDollar (quote :: groups) inner := fun hheld =>
      hbare (hheld.append_left (endsName_opening quote text))
    have hbehind : ¬HoldsBareDollar groups text := by
      rw [← holdsBareDollar_cons hbackslash hclosed fun heq => absurd heq hdollar]
      exact fun hheld => hbare (.append_right hread hheld)
    obtain ⟨span, hspan, rfl⟩ := exists_span hquote hinner hinside
    obtain ⟨rest, hrest, rfl⟩ := ih hopens rfl hbehind
    exact ⟨.span quote hquote span rest, ⟨hspan, hrest⟩, rfl⟩
  | @group inBraces inner text hinner h ihinner ih =>
    have hinside : Opens (.brace :: groups) := fun top htop => (Option.some.inj htop).symm
    have hbrace : true = decide (Group.brace ∈ Group.brace :: groups) := by simp
    have hread := openAfter_of_balanced hinner hinside hbrace
    have hclosed : opened (.brace :: groups) '\x7d' = some groups := by
      simp [opened_brace, Group.ofQuote?]
    rw [holdsBareDollar_cons (by decide) hopens.brace fun heq => absurd heq (by decide)] at hbare
    have hwithin : ¬HoldsBareDollar (.brace :: groups) inner := fun hheld =>
      hbare (hheld.append_left (endsName_cons (by decide) text))
    have hbehind : ¬HoldsBareDollar groups text := by
      rw [← holdsBareDollar_cons (by decide) hclosed fun heq => absurd heq (by decide)]
      exact fun hheld => hbare (.append_right hread hheld)
    obtain ⟨phrase, hphrase, rfl⟩ := ihinner hinside hbrace hwithin
    obtain ⟨rest, hrest, rfl⟩ := ih hopens hbraces hbehind
    exact ⟨.group phrase rest, ⟨hphrase, hrest⟩, rfl⟩

/-- A word of a line that is marked in an environment is the text of a phrase. -/
theorem exists_phrase_of_mark {line : Text} {tokens : List Token}
    (hline : tokenize line = .ok tokens) {word : Text} (hword : .word word ∈ tokens)
    {env : Environment} {marked : Text} (hmark : mark env word = .ok marked) :
    ∃ phrase : Phrase, phrase.Spaced ∧ phrase.text = word := by
  have hclosed := openAfter_word hline hword
  have hbare : ¬HoldsBareDollar [] word := fun hheld => by
    have hfails := (mark_eq_error_iff env hclosed _).2 ⟨rfl, hheld⟩
    rw [hmark] at hfails
    cases hfails
  have hopens : Opens [] := nofun
  exact exists_phrase ((isLine_iff_openAfter word).2 hclosed) hopens rfl hbare

end MemShell.Word
