import MemShell.Proofs.Token.Grouping

/-!
# The grammar of lines

A line is a sequence of ordinary characters, backslash pairs, quoted spans and brace groups, and a
brace group holds such a sequence again. Inside a brace group, at any depth, a quoted span holds no
closing brace. Main statement: the scanner with its stack of open groups accepts exactly the lines
of this grammar, and a closing brace is refused at the first place behind which no line can be
accepted any more.
-/

namespace MemShell.Token

/-! ## The grammar -/

/-- A character that has no part in the grouping of a line. -/
structure IsOrdinary (c : Char) : Prop where
  /-- It is no backslash. -/
  ne_backslash : c ≠ '\\'
  /-- It is no quote. -/
  ofQuote?_eq : Group.ofQuote? c = none
  /-- It is no opening brace. -/
  ne_opening : c ≠ '\x7b'
  /-- It is no closing brace. -/
  ne_closing : c ≠ '\x7d'

/-- The text between two quotes: backslash pairs, and characters other than the backslash and the
quote. Inside braces it holds no closing brace but in a pair. -/
inductive SpanText (inBraces : Bool) (quote : Char) : Text → Prop
  /-- There may be nothing between the quotes. -/
  | nil : SpanText inBraces quote []
  /-- A backslash with any character behind it. -/
  | pair (c : Char) {rest : Text} (h : SpanText inBraces quote rest) :
    SpanText inBraces quote ('\\' :: c :: rest)
  /-- A character of the span. -/
  | char {c : Char} (hbackslash : c ≠ '\\') (hquote : c ≠ quote)
    (hbrace : inBraces = true → c ≠ '\x7d') {rest : Text} (h : SpanText inBraces quote rest) :
    SpanText inBraces quote (c :: rest)

/-- A text in which all groups are closed. It stands inside braces, or it is a whole line. -/
inductive Balanced : (inBraces : Bool) → Text → Prop
  /-- There may be nothing. -/
  | nil {inBraces : Bool} : Balanced inBraces []
  /-- An ordinary character. -/
  | char {inBraces : Bool} {c : Char} (hc : IsOrdinary c) {rest : Text}
    (h : Balanced inBraces rest) : Balanced inBraces (c :: rest)
  /-- A backslash with any character behind it. -/
  | pair {inBraces : Bool} (c : Char) {rest : Text} (h : Balanced inBraces rest) :
    Balanced inBraces ('\\' :: c :: rest)
  /-- A span between two quotes of a kind. -/
  | span {inBraces : Bool} {quote : Group} (hquote : quote.isQuote = true) {inner rest : Text}
    (hinner : SpanText inBraces quote.opening inner) (h : Balanced inBraces rest) :
    Balanced inBraces (quote.opening :: (inner ++ quote.opening :: rest))
  /-- A group between two braces. -/
  | group {inBraces : Bool} {inner rest : Text} (hinner : Balanced true inner)
    (h : Balanced inBraces rest) : Balanced inBraces ('\x7b' :: (inner ++ '\x7d' :: rest))

/-- The lines of the grammar. -/
def IsLine (line : Text) : Prop := Balanced false line

/-! ## What a character does to the groups -/

/-- The character that closes a group. -/
def closing : Group → Char
  | .brace => '\x7d'
  | quote => quote.opening

/-- The character that closes a group takes the group away. -/
theorem openAfter_closing (group : Group) (outer : List Group) (rest : Text) :
    openAfter (group :: outer) (closing group :: rest) = openAfter outer rest := by
  have hbackslash : closing group ≠ '\\' := by cases group <;> decide
  have hclosed : opened (group :: outer) (closing group) = some outer := by
    cases group with
    | brace => simp [opened_brace, closing, Group.ofQuote?]
    | single | double => rw [opened_quote rfl, closing, if_pos rfl]; simp
  rw [openAfter_cons hbackslash, hclosed, Option.bind_some]

/-- All groups can be closed. -/
theorem openAfter_map_closing (groups : List Group) :
    openAfter groups (groups.map closing) = some [] := by
  induction groups with
  | nil => rfl
  | cons group groups ih => rw [List.map_cons, openAfter_closing, ih]

/-- A place at which groups are opened: outside all groups, or directly inside braces. -/
def Opens (groups : List Group) : Prop := ∀ top ∈ groups.head?, top = .brace

section Opens

variable {groups : List Group} (h : Opens groups)

include h

/-- A quote opens its span. -/
theorem Opens.quote {quote : Group} (hquote : quote.isQuote = true) :
    opened groups quote.opening = some (quote :: groups) := by
  cases groups with
  | nil => simp [opened_nil, ofQuote?_opening hquote]
  | cons top outer =>
    obtain rfl := h top rfl
    simp [opened_brace, ofQuote?_opening hquote]

/-- An opening brace opens a group. -/
theorem Opens.brace : opened groups '\x7b' = some (.brace :: groups) := by
  cases groups with
  | nil => simp [opened_nil, Group.ofQuote?]
  | cons top outer =>
    obtain rfl := h top rfl
    simp [opened_brace, Group.ofQuote?]

/-- An ordinary character changes nothing. -/
theorem Opens.ordinary {c : Char} (hc : IsOrdinary c) : opened groups c = some groups := by
  cases groups with
  | nil => simp [opened_nil, hc.ofQuote?_eq, hc.ne_opening, hc.ne_closing]
  | cons top outer =>
    obtain rfl := h top rfl
    simp [opened_brace, hc.ofQuote?_eq, hc.ne_opening, hc.ne_closing]

end Opens

/-! ## From the grammar to the stack -/

/-- The text of a span leaves the groups as they are. -/
theorem openAfter_of_spanText {outer : List Group} {quote : Group} (hquote : quote.isQuote = true)
    {text : Text} (h : SpanText (decide (.brace ∈ outer)) quote.opening text) :
    openAfter (quote :: outer) text = some (quote :: outer) := by
  induction h with
  | nil => rfl
  | pair c h ih => rw [openAfter_pair, ih]
  | @char c hbackslash hne hbrace rest h ih =>
    have hclose : ¬(c = '\x7d' ∧ .brace ∈ outer) := by
      intro hboth
      exact hbrace (decide_eq_true hboth.2) hboth.1
    rw [openAfter_cons hbackslash, opened_quote hquote, if_neg hne, if_neg hclose,
      Option.bind_some, ih]

/-- A balanced text leaves the groups as they are. -/
theorem openAfter_of_balanced {inBraces : Bool} {text : Text} (h : Balanced inBraces text)
    {groups : List Group} (hopens : Opens groups) (hbraces : inBraces = decide (.brace ∈ groups)) :
    openAfter groups text = some groups := by
  induction h generalizing groups with
  | nil => rfl
  | char hc h ih =>
    rw [openAfter_cons hc.ne_backslash, hopens.ordinary hc, Option.bind_some, ih hopens hbraces]
  | pair c h ih => rw [openAfter_pair, ih hopens hbraces]
  | @span inBraces quote hquote inner rest hinner h ih =>
    subst hbraces
    have hbackslash : quote.opening ≠ '\\' := by cases quote <;> decide
    have hcloses : closing quote = quote.opening := by cases quote <;> trivial
    have hspan := openAfter_of_spanText hquote hinner
    rw [openAfter_cons hbackslash, hopens.quote hquote, Option.bind_some, openAfter_append hspan,
      ← hcloses, openAfter_closing, ih hopens rfl]
  | @group inBraces inner rest hinner h ihinner ih =>
    have hinside : openAfter (.brace :: groups) inner = some (.brace :: groups) := by
      apply ihinner
      · intro top htop
        exact (Option.some.inj htop).symm
      · simp
    rw [openAfter_cons (by decide), hopens.brace, Option.bind_some, openAfter_append hinside]
    exact (openAfter_closing .brace groups rest).trans (ih hopens hbraces)

/-! ## From the stack to the grammar -/

/-- A text that closes groups one after the other, the innermost first, and has a balanced text or
the text of a span in front of each closing character. -/
def Closes : List Group → Text → Prop
  | [], text => IsLine text
  | .brace :: outer, text =>
    ∃ inner rest, text = inner ++ '\x7d' :: rest ∧ Balanced true inner ∧ Closes outer rest
  | quote :: outer, text =>
    ∃ inner rest, text = inner ++ quote.opening :: rest ∧
      SpanText (decide (.brace ∈ outer)) quote.opening inner ∧ Closes outer rest

/-- A quoted span is closed by its quote. -/
theorem closes_quote_iff {quote : Group} (h : quote.isQuote = true) (outer : List Group)
    (text : Text) :
    Closes (quote :: outer) text ↔ ∃ inner rest, text = inner ++ quote.opening :: rest ∧
      SpanText (decide (.brace ∈ outer)) quote.opening inner ∧ Closes outer rest := by
  cases quote with
  | brace => cases h
  | single | double => rfl

/-- Groups are opened at a place, or it is inside a quoted span. -/
theorem opens_or_quote (groups : List Group) :
    Opens groups ∨ ∃ quote outer, groups = quote :: outer ∧ quote.isQuote = true := by
  cases groups with
  | nil => exact .inl nofun
  | cons top outer =>
    cases top with
    | brace => exact .inl fun top htop => (Option.some.inj htop).symm
    | single | double => exact .inr ⟨_, outer, rfl, rfl⟩

/-- Where groups are opened, what can stand in front of balanced texts can stand in front. -/
theorem Closes.prepend {groups : List Group} (hopens : Opens groups) (front : Text)
    (hfront : ∀ rest, Balanced (decide (.brace ∈ groups)) rest →
      Balanced (decide (.brace ∈ groups)) (front ++ rest))
    {rest : Text} (h : Closes groups rest) : Closes groups (front ++ rest) := by
  cases groups with
  | nil => exact hfront rest h
  | cons top outer =>
    obtain rfl := hopens top rfl
    obtain ⟨inner, back, rfl, hinner, hback⟩ := h
    have hinside : decide (Group.brace ∈ Group.brace :: outer) = true := by simp
    rw [hinside] at hfront
    exact ⟨front ++ inner, back, (List.append_assoc _ _ _).symm, hfront inner hinner, hback⟩

/-- A backslash pair in front closes nothing. -/
theorem Closes.pair (c : Char) {groups : List Group} {rest : Text} (h : Closes groups rest) :
    Closes groups ('\\' :: c :: rest) := by
  rcases opens_or_quote groups with hopens | ⟨quote, outer, rfl, hquote⟩
  · exact h.prepend hopens ['\\', c] fun rest hrest => hrest.pair c
  · rw [closes_quote_iff hquote] at h ⊢
    obtain ⟨inner, back, rfl, hinner, hback⟩ := h
    exact ⟨'\\' :: c :: inner, back, rfl, hinner.pair c, hback⟩

/-- Where groups are opened, a character in front does to the groups that are closed what it does on
the stack. -/
theorem Closes.cons_of_opens {groups after : List Group} (hopens : Opens groups) {c : Char}
    (hc : c ≠ '\\') (hopened : opened groups c = some after) {rest : Text}
    (h : Closes after rest) : Closes groups (c :: rest) := by
  cases hquote : Group.ofQuote? c with
  | some quote =>
    obtain ⟨rfl, hisQuote⟩ := opening_of_ofQuote? hquote
    obtain rfl := Option.some.inj (hopened.symm.trans (hopens.quote hisQuote))
    obtain ⟨inner, back, rfl, hinner, hback⟩ := (closes_quote_iff hisQuote _ _).1 h
    have hspan := hback.prepend hopens (quote.opening :: (inner ++ [quote.opening]))
      fun rest hrest => by simpa using hrest.span hisQuote hinner
    simpa using hspan
  | none =>
    by_cases hopening : c = '\x7b'
    · subst hopening
      obtain rfl := Option.some.inj (hopened.symm.trans hopens.brace)
      obtain ⟨inner, back, rfl, hinner, hback⟩ := h
      have hgroup := hback.prepend hopens ('\x7b' :: (inner ++ ['\x7d']))
        fun rest hrest => by simpa using Balanced.group hinner hrest
      simpa using hgroup
    · by_cases hclosing : c = '\x7d'
      · subst hclosing
        cases groups with
        | nil => simp [opened_nil, Group.ofQuote?] at hopened
        | cons top outer =>
          obtain rfl := hopens top rfl
          obtain rfl : outer = after := by simpa [opened_brace, Group.ofQuote?] using hopened
          exact ⟨[], rest, rfl, .nil, h⟩
      · have hordinary : IsOrdinary c := ⟨hc, hquote, hopening, hclosing⟩
        obtain rfl := Option.some.inj (hopened.symm.trans (hopens.ordinary hordinary))
        exact h.prepend hopens [c] fun rest hrest => hrest.char hordinary

/-- Inside a quoted span a character in front does to the groups that are closed what it does on the
stack. -/
theorem Closes.cons_of_quote {quote : Group} (hquote : quote.isQuote = true)
    {outer after : List Group} {c : Char} (hc : c ≠ '\\')
    (hopened : opened (quote :: outer) c = some after) {rest : Text} (h : Closes after rest) :
    Closes (quote :: outer) (c :: rest) := by
  rw [opened_quote hquote] at hopened
  rw [closes_quote_iff hquote]
  by_cases hcloses : c = quote.opening
  · obtain rfl : outer = after := by simpa [hcloses] using hopened
    exact ⟨[], rest, by rw [hcloses]; rfl, .nil, h⟩
  · rw [if_neg hcloses] at hopened
    by_cases hbrace : c = '\x7d' ∧ .brace ∈ outer
    · rw [if_pos hbrace] at hopened
      cases hopened
    · rw [if_neg hbrace] at hopened
      obtain rfl := Option.some.inj hopened
      obtain ⟨inner, back, rfl, hinner, hback⟩ := (closes_quote_iff hquote _ _).1 h
      have hkept : decide (Group.brace ∈ outer) = true → c ≠ '\x7d' := by
        intro hmem hclose
        exact hbrace ⟨hclose, of_decide_eq_true hmem⟩
      exact ⟨c :: inner, back, rfl, hinner.char hc hcloses hkept, hback⟩

/-- A text that closes all groups on the stack closes them in the grammar. -/
theorem closes_of_openAfter {groups : List Group} {text : Text}
    (h : openAfter groups text = some []) : Closes groups text := by
  fun_induction openAfter groups text with
  | case1 groups =>
    obtain rfl := Option.some.inj h
    exact Balanced.nil
  | case2 => cases h
  | case3 groups c rest ih => exact (ih h).pair c
  | case4 groups c rest hc after hopened ih =>
    rcases opens_or_quote groups with hopens | ⟨quote, outer, rfl, hquote⟩
    · exact (ih h).cons_of_opens hopens hc hopened
    · exact (ih h).cons_of_quote hquote hc hopened
  | case5 => cases h

/-- A text is a line of the grammar exactly if no group is open after it and none is refused. -/
theorem isLine_iff_openAfter (line : Text) : IsLine line ↔ openAfter [] line = some [] := by
  constructor
  · intro h
    exact openAfter_of_balanced h nofun rfl
  · intro h
    exact closes_of_openAfter h

/-! ## What the scanner finds -/

end MemShell.Token

namespace MemShell.LexError

/-- Whether an error refuses a closing brace that stands in the line. -/
def RefusesBrace : LexError → Prop
  | unopenedBrace _ | braceInQuotes _ => True
  | _ => False

end MemShell.LexError

namespace MemShell.Token

/-- What the outcome of the scanner says about a text inside groups. -/
inductive Verdict (position : Nat) (groups : List Group) (text : Text) :
    Except LexError (List Token) → Prop
  /-- All groups are closed. -/
  | accepted (tokens : List Token) (h : openAfter groups text = some []) :
    Verdict position groups text (.ok tokens)
  /-- A character is refused behind a part that can be read. -/
  | refused {error : LexError} (herror : error.RefusesBrace) (front : Text) (c : Char) (back : Text)
    (htext : text = front ++ c :: back) {inner : List Group}
    (hfront : openAfter groups front = some inner) (hc : c ≠ '\\')
    (hrefused : opened inner c = none) (hposition : error.position = position + front.length) :
    Verdict position groups text (.error error)
  /-- Something is missing at the end. -/
  | unfinished {error : LexError} (herror : ¬error.RefusesBrace)
    (h : openAfter groups text ≠ some []) (missing : Text)
    (hmissing : openAfter groups (text ++ missing) = some []) :
    Verdict position groups text (.error error)

namespace Verdict

variable {position : Nat} {groups : List Group} {text : Text}
  {outcome : Except LexError (List Token)}

/-- Tokens in front of others do not matter. -/
theorem map (h : Verdict position groups text outcome) (f : List Token → List Token) :
    Verdict position groups text (outcome.map f) := by
  cases h with
  | accepted tokens h => exact .accepted (f tokens) h
  | refused herror front c back htext hfront hc hrefused hposition =>
    exact .refused herror front c back htext hfront hc hrefused hposition
  | unfinished herror h missing hmissing => exact .unfinished herror h missing hmissing

/-- What is found behind a part that can be read is found from the start of this part. -/
theorem behind {after : List Group} {start : Text} (hstart : openAfter groups start = some after)
    (h : Verdict (position + start.length) after text outcome) :
    Verdict position groups (start ++ text) outcome := by
  have hread (rest : Text) : openAfter groups (start ++ rest) = openAfter after rest :=
    openAfter_append hstart rest
  cases h with
  | accepted tokens h => exact .accepted tokens ((hread text).trans h)
  | refused herror front c back htext hfront hc hrefused hposition =>
    have hwhole : start ++ text = (start ++ front) ++ c :: back := by
      rw [htext, List.append_assoc]
    refine .refused herror _ c back hwhole ((hread front).trans hfront) hc hrefused ?_
    rw [hposition, List.length_append]
    omega
  | unfinished herror h missing hmissing =>
    refine .unfinished herror ?_ missing ?_
    · rwa [hread]
    · rw [List.append_assoc, hread, hmissing]

/-- A text behind whose start a character is refused cannot be read. -/
theorem openAfter_refused {front : Text} {inner : List Group} {c : Char}
    (hfront : openAfter groups front = some inner) (hc : c ≠ '\\')
    (hrefused : opened inner c = none)
    (back : Text) : openAfter groups (front ++ c :: back) = none := by
  rw [openAfter_append hfront, openAfter_cons hc, hrefused, Option.bind_none]

/-- The scanner succeeds if all groups are closed, and fails otherwise. -/
theorem isOk_iff (h : Verdict position groups text outcome) :
    (∃ tokens, outcome = .ok tokens) ↔ openAfter groups text = some [] := by
  cases h with
  | accepted tokens h => exact iff_of_true ⟨tokens, rfl⟩ h
  | refused herror front c back htext hfront hc hrefused hposition =>
    refine iff_of_false nofun ?_
    rw [htext, openAfter_refused hfront hc hrefused]
    exact nofun
  | unfinished herror h missing hmissing => exact iff_of_false nofun h

end Verdict

/-- The scanner closes all groups, or refuses a character, or misses something at the end. -/
theorem verdict_scan (position : Nat) (groups : List Group) (current text : Text) :
    Verdict position groups text (scan position groups current text) := by
  have hplain {groups : List Group} {c : Char} (hc : c ≠ '\\')
      (hstep : groupStep groups c = .plain) : openAfter groups [c] = some [] := by
    rw [openAfter_cons hc, opened, hstep]
    rfl
  fun_induction scan position groups current text with
  | case1 position current => exact .accepted _ rfl
  | case2 position current outer =>
    exact .unfinished id (by simp) _ (openAfter_map_closing (.brace :: outer))
  | case3 position current quote outer hquote =>
    exact .unfinished id (by simp) _ (openAfter_map_closing (quote :: outer))
  | case4 position groups current =>
    refine .unfinished id (by simp [openAfter]) ('\\' :: groups.map closing) ?_
    exact (openAfter_pair groups _ _).trans (openAfter_map_closing groups)
  | case5 position groups current d after ih => exact ih.behind (openAfter_pair groups d [])
  | case6 position groups current c rest hc error hstep =>
    have hrefused : opened groups c = none := by rw [opened, hstep]
    obtain ⟨herror, hposition⟩ :
        (error position).RefusesBrace ∧ (error position).position = position := by
      rcases refused_of_groupStep hstep with rfl | rfl <;> exact ⟨trivial, rfl⟩
    exact .refused herror [] c rest rfl (openAfter_nil groups) hc hrefused hposition
  | case7 position groups current c rest hc after hstep ih =>
    have hread : openAfter groups [c] = some after := by
      rw [openAfter_cons hc, opened, hstep]
      rfl
    exact ih.behind hread
  | case8 position groups current c rest hc hstep hblank ih =>
    exact (ih.map _).behind (hplain hc hstep)
  | case9 position groups current rest hc hstep hblank ih =>
    exact (ih.map _).behind (hplain hc hstep)
  | case10 position groups current hc hstep hblank hs => exact .accepted _ (hplain hc hstep)
  | case11 position groups current after hc hstep hblank hs ih =>
    have hread : openAfter groups ['>', '>'] = some [] := by
      rw [eq_nil_of_groupStep hstep]
      rfl
    exact (ih.map _).behind hread
  | case12 position groups current d after hgt hc hstep hblank hs ih =>
    exact (ih.map _).behind (hplain hc hstep)
  | case13 position groups current c rest hc hstep hblank hs hgt ih =>
    exact ih.behind (hplain hc hstep)

/-! ## Where a line goes wrong -/

/-- No line of the grammar starts with what stands in a text up to an index and at it. -/
def IsDeadAt (text : Text) (index : Nat) : Prop :=
  ∀ line, IsLine line → ¬text.take (index + 1) <+: line

/-- What can be read is the start of a line. -/
theorem exists_isLine {front : Text} {groups : List Group} (h : openAfter [] front = some groups) :
    ∃ line, IsLine line ∧ front <+: line := by
  refine ⟨front ++ groups.map closing, ?_, List.prefix_append _ _⟩
  rw [isLine_iff_openAfter, openAfter_append h]
  exact openAfter_map_closing groups

/-- A refused character is the first one up to which a text is not the start of a line. -/
theorem isDeadAt_refused {front : Text} {groups : List Group} {c : Char}
    (hfront : openAfter [] front = some groups) (hc : c ≠ '\\') (hrefused : opened groups c = none)
    (back : Text) :
    IsDeadAt (front ++ c :: back) front.length ∧
      ∀ index < front.length, ¬IsDeadAt (front ++ c :: back) index := by
  constructor
  · intro line hline hstart
    have htake : (front ++ c :: back).take (front.length + 1) = front ++ [c] := by
      rw [List.take_length_add_append]
      rfl
    rw [htake] at hstart
    obtain ⟨rest, rfl⟩ := hstart
    rw [isLine_iff_openAfter, List.append_assoc, List.singleton_append,
      Verdict.openAfter_refused hfront hc hrefused] at hline
    cases hline
  · intro index hindex hdead
    obtain ⟨line, hline, hprefix⟩ := exists_isLine hfront
    have htake : (front ++ c :: back).take (index + 1) <+: front := by
      rw [List.take_append_of_le_length hindex]
      exact List.take_prefix _ _
    exact hdead line hline (htake.trans hprefix)

/-- The scanner splits exactly the lines of the grammar and fails on every other text. It refuses a
closing brace at the first index up to which the text is not the start of a line; where it fails for
another reason, the text is the start of a line. -/
theorem tokenize_ok_iff_isLine (text : Text) :
    ((∃ tokens, tokenize text = .ok tokens) ↔ IsLine text) ∧
      ((∃ error, tokenize text = .error error) ↔ ¬IsLine text) ∧
      ∀ error, tokenize text = .error error →
        (error.RefusesBrace →
          IsDeadAt text error.position ∧ ∀ index < error.position, ¬IsDeadAt text index) ∧
        (¬error.RefusesBrace → ∃ line, IsLine line ∧ text <+: line) := by
  have hverdict : Verdict 0 [] text (tokenize text) := verdict_scan 0 [] [] text
  have hok : (∃ tokens, tokenize text = .ok tokens) ↔ IsLine text :=
    hverdict.isOk_iff.trans (isLine_iff_openAfter text).symm
  refine ⟨hok, ?_, ?_⟩
  · rw [← hok]
    cases tokenize text with
    | ok tokens => simp
    | error error => simp
  · intro error herror
    rw [herror] at hverdict
    cases hverdict with
    | refused hbrace front c back htext hfront hc hrefused hposition =>
      rw [htext, hposition, Nat.zero_add]
      exact ⟨fun _ => isDeadAt_refused hfront hc hrefused _, fun hother => absurd hbrace hother⟩
    | unfinished hother h missing hmissing =>
      refine ⟨fun hbrace => absurd hbrace hother, fun _ => ?_⟩
      exact ⟨text ++ missing, (isLine_iff_openAfter _).2 hmissing, List.prefix_append _ _⟩

/-- A brace that is closed inside a quoted span. -/
def crossed : Text := ['a', '\'', '\x7d', '\'', '\x7b', '"', '\\', '\x7d', '\x7d', '"', '\x7d']

theorem tokenize_ok_iff_isLine_crossed :
    tokenize crossed = .error (.braceInQuotes 8) ∧ (LexError.braceInQuotes 8).RefusesBrace ∧
      IsDeadAt crossed 8 ∧ ∀ index < 8, ¬IsDeadAt crossed index := by
  have herror : tokenize crossed = .error (.braceInQuotes 8) := rfl
  obtain ⟨-, -, hfails⟩ := tokenize_ok_iff_isLine crossed
  exact ⟨herror, trivial, (hfails _ herror).1 trivial⟩

end MemShell.Token
