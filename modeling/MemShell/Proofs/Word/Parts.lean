import MemShell.Proofs.Word.Quoting

/-!
# Parts of words

A word is read into parts before any variable is looked up: characters that stand for themselves,
wildcards, and places where the value of a variable or the home directory is put in. The parts are
the same in every environment, and what is put in is literal, whatever it holds. So no value makes a
word fail, turns into a wildcard or splits a word in two.
-/

namespace MemShell

/-- The wildcards that marked text denotes, in order. -/
def Marked.wildcards (text : Text) : Text := ((decode text).filter Glyph.isWildcard).map Glyph.char

namespace Word

/-- A part of a word. -/
inductive Part
  /-- Characters that stand for themselves. -/
  | literal (text : Text)
  /-- A wildcard. -/
  | wildcard (c : Char) (isGlobChar : Marked.isGlobChar c = true)
  /-- The place of the value of a variable. -/
  | value (name : Text)
  /-- The place of the home directory. -/
  | home

namespace Part

/-- The characters of a part in an environment. -/
def text (env : Environment) : Part → Text
  | literal text => text
  | wildcard c _ => [c]
  | value name => env.getD name []
  | home => Word.home env

/-- The wildcards of a part. Only a part that is one has any. -/
def wildcards : Part → Text
  | wildcard c _ => [c]
  | _ => []

/-- What a part denotes in an environment. Only the character of a wildcard is one. -/
def glyphs (env : Environment) : Part → List Glyph
  | wildcard c _ => [⟨c, true⟩]
  | part => (part.text env).map fun c => ⟨c, false⟩

/-- A part as marked text in an environment. -/
def marked (env : Environment) : Part → Text
  | wildcard c _ => Marked.wildcard c
  | part => Marked.escape (part.text env)

/-- Parts put together as marked text in an environment. -/
def assemble (env : Environment) (parts : List Part) : Text := parts.flatMap (marked env)

@[simp] theorem assemble_nil (env : Environment) : assemble env [] = [] := rfl

@[simp] theorem assemble_cons (env : Environment) (part : Part) (parts : List Part) :
    assemble env (part :: parts) = part.marked env ++ assemble env parts :=
  List.flatMap_cons

@[simp] theorem assemble_append (env : Environment) (front back : List Part) :
    assemble env (front ++ back) = assemble env front ++ assemble env back :=
  List.flatMap_append

/-- A part decodes to what it denotes, whatever follows it. -/
theorem decode_marked_append (env : Environment) (part : Part) (rest : Text) :
    Marked.decode (part.marked env ++ rest) = part.glyphs env ++ Marked.decode rest := by
  cases part with
  | wildcard c h => exact Marked.decode_wildcard_append h rest
  | literal text | value name | home => exact Marked.decode_escape_append _ rest

/-- Parts decode one after the other. -/
theorem decode_assemble (env : Environment) (parts : List Part) :
    Marked.decode (assemble env parts) = parts.flatMap (glyphs env) :=
  Marked.decode_flatMap (decode_marked_append env) parts

/-- The wildcards of parts that are put together are those of the parts. -/
theorem wildcards_assemble (env : Environment) (parts : List Part) :
    Marked.wildcards (assemble env parts) = parts.flatMap wildcards := by
  have hpart (part : Part) :
      ((part.glyphs env).filter Glyph.isWildcard).map Glyph.char = part.wildcards := by
    cases part <;> simp [glyphs, wildcards]
  rw [Marked.wildcards, decode_assemble]
  induction parts with
  | nil => rfl
  | cons part parts ih =>
    rw [List.flatMap_cons, List.filter_append, List.map_append, hpart, ih, List.flatMap_cons]

end Part

/-! ## Wildcards outside groups -/

/-- The groups that a character opens where it is not quoted. -/
def openedBy (c : Char) : List Group :=
  if c = '\x7b' then [.brace] else (Group.ofQuote? c).toList

/-- The groups that are open after a character of a word, a backslash left aside: a quoted span is
closed by its own quote only, a brace group by a closing brace, and everywhere else but in quoted
spans opening characters open their groups. -/
def groupsAfter (groups : List Group) (c : Char) : List Group :=
  match groups with
  | [] => openedBy c
  | .brace :: outer => if c = '\x7d' then outer else openedBy c ++ groups
  | quote :: outer => if c = quote.opening then outer else groups

/-- The wildcard that a character is inside groups: outside all of them it may be one. -/
def wildcardIn (groups : List Group) (c : Char) : Text :=
  if groups.isEmpty && Marked.isGlobChar c then [c] else []

/-- The question marks and asterisks of the rest of a word that no backslash stands before and no
group is open around, in order. -/
def freeWildcards (groups : List Group) : Text → Text
  | [] => []
  | '\\' :: _ :: rest => freeWildcards groups rest
  | c :: rest => wildcardIn groups c ++ freeWildcards (groupsAfter groups c) rest

theorem freeWildcards_cons {c : Char} (hc : c ≠ '\\') (groups : List Group) (rest : Text) :
    freeWildcards groups (c :: rest) =
      wildcardIn groups c ++ freeWildcards (groupsAfter groups c) rest := by
  rw [freeWildcards]
  rintro d after heq
  exact absurd heq hc

/-- A character that opens no group and closes none leaves the groups as they are. -/
theorem groupsAfter_of_ne {c : Char} (hs : c ≠ '\'') (hd : c ≠ '"') (ho : c ≠ '\x7b')
    (hc : c ≠ '\x7d') (groups : List Group) : groupsAfter groups c = groups := by
  have hopened : openedBy c = [] := by simp [openedBy, ho, Token.ofQuote?_eq_none hs hd]
  match groups with
  | [] => exact hopened
  | .brace :: outer => simp [groupsAfter, hc, hopened]
  | .single :: outer => simp [groupsAfter, Group.opening, hs]
  | .double :: outer => simp [groupsAfter, Group.opening, hd]

/-- A character of a name differs from every character that is in no name. -/
theorem ne_of_isNameChar {c d : Char} (hc : Environment.isNameChar c = true)
    (hd : Environment.isNameChar d = false) : c ≠ d := by
  rintro rfl
  rw [hc] at hd
  cases hd

/-- A character of a name is no wildcard. -/
theorem wildcardIn_of_isNameChar {c : Char} (h : Environment.isNameChar c = true)
    (groups : List Group) : wildcardIn groups c = [] := by
  have hone : c ≠ '?' := ne_of_isNameChar h (by decide)
  have hmany : c ≠ '*' := ne_of_isNameChar h (by decide)
  simp [wildcardIn, Marked.isGlobChar, hone, hmany]

/-- A name holds no wildcard. -/
theorem freeWildcards_afterName (groups : List Group) (text : Text) :
    freeWildcards groups (afterName text) = freeWildcards groups text := by
  induction text with
  | nil => rfl
  | cons c text ih =>
    by_cases hc : Environment.isNameChar c = true
    · have hafter : afterName (c :: text) = afterName text := by simp [afterName, hc]
      have hgroups : groupsAfter groups c = groups :=
        groupsAfter_of_ne (ne_of_isNameChar hc (by decide)) (ne_of_isNameChar hc (by decide))
          (ne_of_isNameChar hc (by decide)) (ne_of_isNameChar hc (by decide)) groups
      rw [hafter, ih, freeWildcards_cons (ne_of_isNameChar hc (by decide)),
        wildcardIn_of_isNameChar hc, hgroups, List.nil_append]
    · simp [afterName, hc]

/-! ## Reading -/

/-- The rest of a word inside groups starts with a part, in every environment alike. -/
structure StartsWith (word : Text) (groups : List Group) (text : Text) (part : Part)
    (after : List Group) (later : Text) : Prop where
  /-- Less text is left. -/
  length_lt : later.length < text.length
  /-- The part is put in front of what is left. -/
  resolve_eq : ∀ env, resolve env word groups text =
    (resolve env word after later).map (part.marked env ++ ·)
  /-- The wildcards of the part come before those that are left. -/
  freeWildcards_eq : freeWildcards groups text = part.wildcards ++ freeWildcards after later

/-- Literal characters are a part. -/
theorem StartsWith.literal {word text later : Text} {groups after : List Group} (literal : Text)
    (hlength : later.length < text.length)
    (hresolve : ∀ env, resolve env word groups text =
      (resolve env word after later).map (Marked.escape literal ++ ·))
    (hwild : freeWildcards groups text = freeWildcards after later) :
    StartsWith word groups text (.literal literal) after later :=
  ⟨hlength, hresolve, hwild⟩

/-- Inside groups nothing is a wildcard. -/
theorem wildcardIn_cons (group : Group) (outer : List Group) (c : Char) :
    wildcardIn (group :: outer) c = [] := rfl

/-- A quote is no wildcard. -/
theorem isGlobChar_of_ofQuote? {c : Char} {quote : Group} (h : Group.ofQuote? c = some quote) :
    Marked.isGlobChar c = false := by
  unfold Group.ofQuote? at h
  split at h <;> cases h <;> rfl

/-- A backslash and the character after it are literal, and so is a backslash at the end. -/
theorem exists_startsWith_backslash (word : Text) (groups : List Group) (rest : Text) :
    ∃ part after later, StartsWith word groups ('\\' :: rest) part after later := by
  cases rest with
  | nil =>
    refine ⟨_, groups, [], .literal ['\\'] (by simp) (fun env => ?_) ?_⟩
    · rw [resolve.eq_2]
      rfl
    · cases groups <;> rfl
  | cons c rest =>
    have hlength : rest.length < ('\\' :: c :: rest).length :=
      Nat.lt_succ_of_lt (Nat.lt_succ_self _)
    refine ⟨_, groups, rest, .literal (escaped groups c) hlength (fun env => ?_) ?_⟩
    · rw [resolve]
    · rw [freeWildcards]

/-- A dollar sign is literal in single quotes; elsewhere it starts a variable, or the word fails. -/
theorem exists_startsWith_dollar (word : Text) (groups : List Group) (rest : Text) :
    (∃ error, ∀ env, resolve env word groups ('$' :: rest) = .error error) ∨
      ∃ part after later, StartsWith word groups ('$' :: rest) part after later := by
  have hwild : freeWildcards groups ('$' :: rest) = freeWildcards groups rest := by
    rw [freeWildcards_cons (by decide),
      groupsAfter_of_ne (by decide) (by decide) (by decide) (by decide)]
    cases groups <;> rfl
  by_cases hsingle : groups.head? = some .single
  · obtain ⟨outer, rfl⟩ := List.head?_eq_some_iff.1 hsingle
    refine .inr ⟨_, .single :: outer, rest, .literal ['$'] (by simp)
      (fun env => ?_) hwild⟩
    rw [resolve]
    rfl
  · have hresolve (env : Environment) := resolve.eq_5 env word groups rest
      (by rintro outer rfl; exact hsingle rfl)
    by_cases hname : variableName rest = []
    · refine .inl ⟨.missingName word, fun env => ?_⟩
      rw [hresolve, if_pos (by simpa using hname)]
    · have hlength : (afterName rest).length ≤ rest.length :=
        (List.dropWhile_sublist _).length_le
      refine .inr ⟨.value (variableName rest), groups, afterName rest,
        Nat.lt_succ_of_le hlength, fun env => ?_, ?_⟩
      · rw [hresolve, if_neg (by simpa using hname)]
        rfl
      · rw [hwild, freeWildcards_afterName]
        rfl

/-- Outside all groups a quote or a brace opens a group, a closing brace fails, and any other
character is a wildcard or literal. -/
theorem exists_startsWith_nil (word : Text) {c : Char} (hb : c ≠ '\\') (hv : c ≠ '$')
    (rest : Text) :
    (∃ error, ∀ env, resolve env word [] (c :: rest) = .error error) ∨
      ∃ part after later, StartsWith word [] (c :: rest) part after later := by
  have hresolve (env : Environment) := resolve.eq_6 env word c rest hb hv
  have hwild := freeWildcards_cons hb [] rest
  have hlength : rest.length < (c :: rest).length := Nat.lt_succ_self _
  cases hq : Group.ofQuote? c with
  | some quote =>
    have hne : c ≠ '\x7b' := by rintro rfl; cases hq
    refine .inr ⟨_, [quote], rest, .literal [] hlength (fun env => ?_) ?_⟩
    · rw [hresolve, hq]
      exact (map_nil_append _).symm
    · simp [hwild, wildcardIn, isGlobChar_of_ofQuote? hq, groupsAfter, openedBy, hne, hq]
  | none =>
    simp only [hq] at hresolve
    by_cases ho : c = '\x7b'
    · refine .inr ⟨_, [.brace], rest, .literal [] hlength (fun env => ?_) ?_⟩
      · rw [hresolve, if_pos ho]
        exact (map_nil_append _).symm
      · rw [hwild, ho]
        rfl
    · by_cases hc : c = '\x7d'
      · refine .inl ⟨.unopenedBrace word, fun env => ?_⟩
        rw [hresolve, if_neg ho, if_pos hc]
      · have hgroups : groupsAfter [] c = [] := by simp [groupsAfter, openedBy, ho, hq]
        rw [hgroups] at hwild
        cases hg : Marked.isGlobChar c with
        | true =>
          refine .inr ⟨.wildcard c hg, [], rest, hlength, fun env => ?_, ?_⟩
          · rw [hresolve, if_neg ho, if_neg hc, if_pos hg]
            rfl
          · simp [hwild, wildcardIn, hg, Part.wildcards]
        | false =>
          refine .inr ⟨_, [], rest, .literal [c] hlength (fun env => ?_) ?_⟩
          · rw [hresolve, if_neg ho, if_neg hc, if_neg (by simp [hg])]
          · simp [hwild, wildcardIn, hg]

/-- Inside braces a quote opens a span and is kept, braces nest, and any other character is literal.
-/
theorem exists_startsWith_brace (word : Text) (outer : List Group) {c : Char} (hb : c ≠ '\\')
    (hv : c ≠ '$') (rest : Text) :
    ∃ part after later, StartsWith word (.brace :: outer) (c :: rest) part after later := by
  have hresolve (env : Environment) := resolve.eq_7 env word c rest outer hb hv
  have hwild := freeWildcards_cons hb (.brace :: outer) rest
  have hlength : rest.length < (c :: rest).length := Nat.lt_succ_self _
  rw [wildcardIn_cons, List.nil_append] at hwild
  cases hq : Group.ofQuote? c with
  | some quote =>
    have ho : c ≠ '\x7b' := by rintro rfl; cases hq
    have hc : c ≠ '\x7d' := by rintro rfl; cases hq
    have hm : c ≠ Marked.marker := by rintro rfl; cases hq
    refine ⟨_, quote :: .brace :: outer, rest,
      .literal [c] hlength (fun env => ?_) ?_⟩
    · rw [hresolve, hq]
      simp [Marked.escape, hm]
    · simp [hwild, groupsAfter, openedBy, ho, hc, hq]
  | none =>
    simp only [hq] at hresolve
    by_cases ho : c = '\x7b'
    · refine ⟨_, .brace :: .brace :: outer, rest,
        .literal [] hlength (fun env => ?_) ?_⟩
      · rw [hresolve, if_pos ho]
        exact (map_nil_append _).symm
      · rw [hwild, ho]
        rfl
    · by_cases hc : c = '\x7d'
      · refine ⟨_, outer, rest, .literal [] hlength (fun env => ?_) ?_⟩
        · rw [hresolve, if_neg ho, if_pos hc]
          exact (map_nil_append _).symm
        · rw [hwild, hc]
          rfl
      · refine ⟨_, .brace :: outer, rest, .literal [c] hlength (fun env => ?_) ?_⟩
        · rw [hresolve, if_neg ho, if_neg hc]
        · simp [hwild, groupsAfter, openedBy, ho, hc, hq]

/-- Inside a quoted span its own quote closes it, and any other character is literal. -/
theorem exists_startsWith_quote (word : Text) {quote : Group} (hq : quote.isQuote = true)
    (outer : List Group) {c : Char} (hb : c ≠ '\\') (hv : c ≠ '$') (rest : Text) :
    ∃ part after later, StartsWith word (quote :: outer) (c :: rest) part after later := by
  have hwild := freeWildcards_cons hb (quote :: outer) rest
  have hlength : rest.length < (c :: rest).length := Nat.lt_succ_self _
  have hgroups : groupsAfter (quote :: outer) c =
      if c = quote.opening then outer else quote :: outer := by
    cases quote with
    | brace => cases hq
    | single | double => rfl
  rw [wildcardIn_cons, List.nil_append, hgroups] at hwild
  by_cases hc : c = quote.opening
  · rw [if_pos hc] at hwild
    refine ⟨_, outer, rest, .literal (keptQuote (decide (.brace ∈ outer)) c) hlength
      (fun env => ?_) hwild⟩
    have hescape : Marked.escape (keptQuote (decide (.brace ∈ outer)) c) =
        keptQuote (decide (.brace ∈ outer)) c := by
      cases quote with
      | brace => cases hq
      | single | double => rw [hc]; cases decide (Group.brace ∈ outer) <;> rfl
    rw [hescape, hc]
    exact resolve_close env word rest quote hq outer
  · rw [if_neg hc] at hwild
    refine ⟨_, quote :: outer, rest, .literal [c] hlength (fun env => ?_) hwild⟩
    exact resolve_within env word rest quote hq outer hb hc hv

/-- The rest of a word that is not empty fails in every environment or starts with a part. -/
theorem exists_startsWith (word : Text) (groups : List Group) (c : Char) (rest : Text) :
    (∃ error, ∀ env, resolve env word groups (c :: rest) = .error error) ∨
      ∃ part after later, StartsWith word groups (c :: rest) part after later := by
  by_cases hb : c = '\\'
  · rw [hb]
    exact .inr (exists_startsWith_backslash word groups rest)
  · by_cases hv : c = '$'
    · rw [hv]
      exact exists_startsWith_dollar word groups rest
    · match groups with
      | [] => exact exists_startsWith_nil word hb hv rest
      | .brace :: outer => exact .inr (exists_startsWith_brace word outer hb hv rest)
      | .single :: outer | .double :: outer =>
        exact .inr (exists_startsWith_quote word rfl outer hb hv rest)

/-- The rest of a word inside groups is read as parts, or as a failure, in every environment alike.
-/
structure IsReading (word : Text) (groups : List Group) (text : Text)
    (reading : Except WordError (List Part)) : Prop where
  /-- The marked text is the parts put together. -/
  resolve_eq : ∀ env, resolve env word groups text = reading.map (Part.assemble env)
  /-- The wildcards of the parts are those outside groups. -/
  wildcards_eq : ∀ parts, reading = .ok parts →
    parts.flatMap Part.wildcards = freeWildcards groups text

/-- The rest of a word that starts with a part is read as that part and what is left. -/
theorem StartsWith.isReading {word text later : Text} {groups after : List Group} {part : Part}
    (h : StartsWith word groups text part after later) {reading : Except WordError (List Part)}
    (hlater : IsReading word after later reading) :
    IsReading word groups text (reading.map (part :: ·)) where
  resolve_eq env := by
    rw [h.resolve_eq, hlater.resolve_eq]
    cases reading <;> rfl
  wildcards_eq parts hparts := by
    cases reading with
    | error error => cases hparts
    | ok found =>
      cases hparts
      rw [h.freeWildcards_eq, ← hlater.wildcards_eq found rfl, List.flatMap_cons]

/-- The rest of a word has a reading. The induction is on its length, since a name is read in one
step. -/
theorem exists_isReading (word : Text) (groups : List Group) (text : Text) :
    ∃ reading, IsReading word groups text reading := by
  induction hn : text.length using Nat.strongRecOn generalizing groups text with
  | ind n ih =>
    subst hn
    cases text with
    | nil =>
      by_cases hgroups : groups = []
      · subst hgroups
        refine ⟨.ok [], fun env => by rw [resolve]; rfl, fun parts hparts => ?_⟩
        cases hparts
        rfl
      · refine ⟨.error (.unclosedGroup word), fun env => ?_, fun parts hparts => by cases hparts⟩
        rw [resolve, if_neg (by simpa using hgroups)]
        rfl
    | cons c rest =>
      rcases exists_startsWith word groups c rest with ⟨error, herror⟩ | ⟨part, after, later, h⟩
      · exact ⟨.error error, herror, fun parts hparts => by cases hparts⟩
      · obtain ⟨reading, hreading⟩ := ih _ h.length_lt after later rfl
        exact ⟨_, h.isReading hreading⟩

/-! ## Whole words -/

/-- A word is read as parts, or as a failure, in every environment alike, and the wildcards of the
parts are those of the word outside groups. -/
theorem exists_reading (word : Text) :
    ∃ reading : Except WordError (List Part),
      (∀ env, mark env word = reading.map (Part.assemble env)) ∧
        ∀ parts, reading = .ok parts → parts.flatMap Part.wildcards = freeWildcards [] word := by
  have htilde (rest : Text) : freeWildcards [] ('~' :: rest) = freeWildcards [] rest := by
    rw [freeWildcards_cons (by decide)]
    rfl
  unfold mark
  split
  · refine ⟨.ok [.home], fun env => ?_, fun parts hparts => ?_⟩
    · simp [Except.map, Part.assemble, Part.marked, Part.text]
    · cases hparts
      rfl
  · next rest =>
    obtain ⟨reading, hreading⟩ := exists_isReading ('~' :: '/' :: rest) [] ('/' :: rest)
    refine ⟨reading.map (.home :: ·), fun env => ?_, fun parts hparts => ?_⟩
    · rw [hreading.resolve_eq]
      cases reading <;> rfl
    · cases reading with
      | error error => cases hparts
      | ok found =>
        cases hparts
        rw [htilde, ← hreading.wildcards_eq found rfl]
        rfl
  · obtain ⟨reading, hreading⟩ := exists_isReading word [] word
    exact ⟨reading, hreading.resolve_eq, hreading.wildcards_eq⟩

/-- What is put into a word has no say in how the word is read. -/
structure KeepsValuesLiteral (word : Text) : Prop where
  /-- The word is marked in every environment or in none. -/
  marked_alike : ∀ env other, (∃ marked, mark env word = .ok marked) →
    ∃ marked, mark other word = .ok marked
  /-- The wildcards of the marked text are those of the word outside groups, in order. -/
  wildcards_eq : ∀ env marked, mark env word = .ok marked →
    Marked.wildcards marked = freeWildcards [] word
  /-- The marked text is made of parts that no environment changes, and it denotes what they denote:
  the characters that stand in the place of a variable or of the home directory are literal. -/
  literal : ∃ reading : Except WordError (List Part), ∀ env,
    mark env word = reading.map (Part.assemble env) ∧
      (mark env word).map Marked.decode =
        reading.map fun parts => parts.flatMap (Part.glyphs env)

/-- What is put into a word is literal. -/
theorem keepsValuesLiteral (word : Text) : KeepsValuesLiteral word := by
  obtain ⟨reading, hmark, hwild⟩ := exists_reading word
  cases reading with
  | error error =>
    have hfails (env : Environment) : ¬∃ marked, mark env word = .ok marked := by
      rintro ⟨marked, hmarked⟩
      rw [hmark] at hmarked
      cases hmarked
    refine ⟨fun env _ h => absurd h (hfails env), fun env marked h => ?_, .error error,
      fun env => ?_⟩
    · exact absurd ⟨marked, h⟩ (hfails env)
    · rw [hmark]
      exact ⟨rfl, rfl⟩
  | ok parts =>
    refine ⟨fun _ other _ => ⟨_, hmark other⟩, fun env marked h => ?_, .ok parts, fun env => ?_⟩
    · rw [hmark] at h
      cases h
      rw [Part.wildcards_assemble, hwild parts rfl]
    · rw [hmark]
      exact ⟨rfl, congrArg Except.ok (Part.decode_assemble env parts)⟩

end Word

end MemShell
