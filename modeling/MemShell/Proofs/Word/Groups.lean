import Mathlib.Tactic.SplitIfs
import MemShell.Proofs.Token.Grouping
import MemShell.Word.Expansion

/-!
# Resolving words with their groups

The scanner of lines and the resolver of words each keep the open groups. Main statement: on the
words of a line they agree, so that no word is refused for a brace or an open group, and a word is
refused exactly when it holds a dollar sign that has to start a variable and does not.
-/

namespace MemShell.Word

open Token

/-- Whether a text that is read inside groups holds a bare dollar sign: it is not escaped, the
innermost group around it is no single-quoted span, and no character of a name follows it. -/
def HoldsBareDollar (groups : List Group) (text : Text) : Prop :=
  ∃ front inner back, text = front ++ '$' :: back ∧ openAfter groups front = some inner ∧
    inner.head? ≠ some .single ∧ ∀ c ∈ back.head?, Environment.isNameChar c = false

/-- There is no name at the start of a text exactly when its first character is in none. -/
theorem variableName_eq_nil_iff (text : Text) :
    variableName text = [] ↔ ∀ c ∈ text.head?, Environment.isNameChar c = false := by
  cases text with
  | nil => simp [variableName]
  | cons c text => simp [variableName, List.takeWhile_cons]

/-- An empty text holds nothing. -/
theorem not_holdsBareDollar_nil (groups : List Group) : ¬HoldsBareDollar groups [] := by
  rintro ⟨front, inner, back, h, -⟩
  simp at h

/-- A backslash pair holds no bare dollar sign. -/
theorem holdsBareDollar_pair (groups : List Group) (c : Char) (rest : Text) :
    HoldsBareDollar groups ('\\' :: c :: rest) ↔ HoldsBareDollar groups rest := by
  constructor
  · rintro ⟨front, inner, back, h, hfront, hinner⟩
    match front with
    | [] => simp at h
    | [d] =>
      obtain ⟨rfl, -⟩ : '\\' = d ∧ _ := by simpa using h
      simp [openAfter] at hfront
    | d :: e :: front =>
      obtain ⟨rfl, rfl, rfl⟩ : '\\' = d ∧ c = e ∧ rest = front ++ '$' :: back := by simpa using h
      exact ⟨front, inner, back, rfl, by simpa using hfront, hinner⟩
  · rintro ⟨front, inner, back, rfl, hfront, hinner⟩
    exact ⟨'\\' :: c :: front, inner, back, rfl, by simpa using hfront, hinner⟩

/-- Reading goes on behind a character that is neither a backslash nor a bare dollar sign. -/
theorem holdsBareDollar_cons {groups after : List Group} {c : Char} (hc : c ≠ '\\')
    (hopened : opened groups c = some after) {rest : Text}
    (hbare : c = '$' → groups.head? ≠ some .single → variableName rest ≠ []) :
    HoldsBareDollar groups (c :: rest) ↔ HoldsBareDollar after rest := by
  constructor
  · rintro ⟨front, inner, back, h, hfront, hinner, hback⟩
    cases front with
    | nil =>
      obtain ⟨rfl, rfl⟩ : c = '$' ∧ rest = back := by simpa using h
      cases hfront
      exact absurd ((variableName_eq_nil_iff rest).2 hback) (hbare rfl hinner)
    | cons d front =>
      obtain ⟨rfl, rfl⟩ : c = d ∧ rest = front ++ '$' :: back := by simpa using h
      rw [openAfter_cons hc, hopened, Option.bind_some] at hfront
      exact ⟨front, inner, back, rfl, hfront, hinner, hback⟩
  · rintro ⟨front, inner, back, rfl, hfront, hinner⟩
    refine ⟨c :: front, inner, back, rfl, ?_, hinner⟩
    rw [openAfter_cons hc, hopened, Option.bind_some, hfront]

/-- A character of a name changes no groups. -/
theorem opened_of_isNameChar {c : Char} (h : Environment.isNameChar c = true)
    (groups : List Group) : opened groups c = some groups := by
  have hs : c ≠ '\'' := by rintro rfl; exact absurd h (by decide)
  have hd : c ≠ '"' := by rintro rfl; exact absurd h (by decide)
  have ho : c ≠ '\x7b' := by rintro rfl; exact absurd h (by decide)
  have hc : c ≠ '\x7d' := by rintro rfl; exact absurd h (by decide)
  cases groups <;> simp [opened, groupStep, ofQuote?_eq_none hs hd, ho, hc]

/-- A dollar sign changes no groups. -/
theorem opened_dollar (groups : List Group) : opened groups '$' = some groups := by
  cases groups <;> simp [opened, groupStep, Group.ofQuote?]

/-- A name is read over without a change of groups. -/
theorem openAfter_afterName (groups : List Group) (text : Text) :
    openAfter groups (afterName text) = openAfter groups text := by
  induction text with
  | nil => rfl
  | cons c text ih =>
    by_cases hc : Environment.isNameChar c = true
    · have hb : c ≠ '\\' := by rintro rfl; exact absurd hc (by decide)
      have hafter : afterName (c :: text) = afterName text := by simp [afterName, hc]
      rw [hafter, ih, openAfter_cons hb, opened_of_isNameChar hc, Option.bind_some]
    · simp [afterName, hc]

/-- A name holds no bare dollar sign. -/
theorem holdsBareDollar_afterName (groups : List Group) (text : Text) :
    HoldsBareDollar groups (afterName text) ↔ HoldsBareDollar groups text := by
  induction text with
  | nil => rfl
  | cons c text ih =>
    by_cases hc : Environment.isNameChar c = true
    · have hb : c ≠ '\\' := by rintro rfl; exact absurd hc (by decide)
      have hv : c ≠ '$' := by rintro rfl; exact absurd hc (by decide)
      have hafter : afterName (c :: text) = afterName text := by simp [afterName, hc]
      rw [hafter, ih, holdsBareDollar_cons hb (opened_of_isNameChar hc groups)
        (fun h => absurd h hv)]
    · simp [afterName, hc]

/-- Where the scanner of lines goes on inside some groups, the resolver goes on inside the same. -/
theorem resolve_of_opened (env : Environment) (word : Text) {groups after : List Group} {c : Char}
    (hb : c ≠ '\\') (hv : c ≠ '$') (h : opened groups c = some after) (rest : Text) :
    ∃ f, resolve env word groups (c :: rest) = (resolve env word after rest).map f := by
  have hid (result : Except WordError Text) : ∃ f, result = result.map f :=
    ⟨id, by cases result <;> rfl⟩
  match groups with
  | [] =>
    rw [opened_nil] at h
    rw [resolve.eq_6 _ _ _ _ hb hv]
    cases hq : Group.ofQuote? c with
    | some quote =>
      simp only [hq, Option.some.injEq] at h
      subst h
      exact hid _
    | none =>
      simp only [hq] at h
      split_ifs at h ⊢ <;> cases h
      · exact hid _
      · exact ⟨_, rfl⟩
      · exact ⟨_, rfl⟩
  | .brace :: outer =>
    rw [opened_brace] at h
    rw [resolve.eq_7 _ _ _ _ _ hb hv]
    cases hq : Group.ofQuote? c with
    | some quote =>
      simp only [hq, Option.some.injEq] at h
      subst h
      exact ⟨_, rfl⟩
    | none =>
      simp only [hq] at h
      split_ifs at h ⊢ <;> cases h
      · exact hid _
      · exact hid _
      · exact ⟨_, rfl⟩
  | .single :: outer | .double :: outer =>
    rw [opened_quote rfl] at h
    rw [resolve.eq_8 _ _ _ _ _ _ hb hv (by simp)]
    split_ifs at h ⊢ <;> cases h
    · exact ⟨_, rfl⟩
    · exact ⟨_, rfl⟩

private theorem map_eq_error_iff {result : Except WordError Text} {f : Text → Text}
    {error : WordError} : result.map f = .error error ↔ result = .error error := by
  cases result <;> simp [Except.map]

/-- Where the groups of a text are closed at its end, only a bare dollar sign makes the resolver
fail. The induction is on the length, since the resolver reads a name in one step. -/
theorem resolve_eq_error_iff (env : Environment) (word : Text) (error : WordError)
    {groups : List Group} {text : Text} (h : openAfter groups text = some []) :
    resolve env word groups text = .error error ↔
      error = .missingName word ∧ HoldsBareDollar groups text := by
  induction hn : text.length using Nat.strongRecOn generalizing groups text with
  | ind n ih =>
    subst hn
    cases text with
    | nil =>
      cases h
      simp [resolve, not_holdsBareDollar_nil]
    | cons c rest =>
      by_cases hb : c = '\\'
      · subst hb
        cases rest with
        | nil => simp [openAfter] at h
        | cons d rest =>
          rw [openAfter_pair] at h
          have hlength : rest.length < ('\\' :: d :: rest).length := by
            simp only [List.length_cons]
            omega
          rw [resolve, map_eq_error_iff, holdsBareDollar_pair]
          exact ih _ hlength h rfl
      · obtain ⟨after, hopened, hafter⟩ : ∃ after, opened groups c = some after ∧
            openAfter after rest = some [] := by
          rw [openAfter_cons hb] at h
          exact Option.bind_eq_some_iff.1 h
        by_cases hv : c = '$'
        · subst hv
          obtain rfl : groups = after := Option.some.inj ((opened_dollar groups).symm.trans hopened)
          by_cases hsingle : groups.head? = some .single
          · obtain ⟨outer, rfl⟩ := List.head?_eq_some_iff.1 hsingle
            rw [resolve, map_eq_error_iff,
              holdsBareDollar_cons hb hopened (fun _ hne => absurd hsingle hne)]
            exact ih _ (by simp) hafter rfl
          · rw [resolve.eq_5 _ _ _ _ (by rintro outer rfl; exact hsingle rfl)]
            by_cases hname : variableName rest = []
            · have hbare : HoldsBareDollar groups ('$' :: rest) :=
                ⟨[], groups, rest, rfl, rfl, hsingle, (variableName_eq_nil_iff rest).1 hname⟩
              simp [hname, hbare, eq_comm]
            · have hlength : (afterName rest).length ≤ rest.length :=
                (List.dropWhile_sublist _).length_le
              rw [if_neg (by simpa using hname), map_eq_error_iff,
                holdsBareDollar_cons hb hopened (fun _ _ => hname), ← holdsBareDollar_afterName]
              exact ih _ (Nat.lt_succ_of_le hlength)
                ((openAfter_afterName groups rest).trans hafter) rfl
        · obtain ⟨f, hstep⟩ := resolve_of_opened env word hb hv hopened rest
          rw [hstep, map_eq_error_iff, holdsBareDollar_cons hb hopened (fun heq => absurd heq hv)]
          exact ih _ (by simp) hafter rfl

/-- A word that closes its groups is refused for a bare dollar sign only. -/
theorem mark_eq_error_iff (env : Environment) {word : Text} (h : openAfter [] word = some [])
    (error : WordError) :
    mark env word = .error error ↔ error = .missingName word ∧ HoldsBareDollar [] word := by
  have htilde (rest : Text) : HoldsBareDollar [] ('~' :: rest) ↔ HoldsBareDollar [] rest :=
    holdsBareDollar_cons (by decide) rfl (fun heq => absurd heq (by decide))
  unfold mark
  split
  · simp [htilde, not_holdsBareDollar_nil]
  · next rest =>
    rw [map_eq_error_iff, htilde]
    exact resolve_eq_error_iff env _ error h
  · exact resolve_eq_error_iff env _ error h

private theorem toList_ne_toList {a b : String} (h : a ≠ b) : a.toList ≠ b.toList :=
  fun heq => h (String.toList_inj.1 heq)

/-- On the words of a line that can be split, the resolver and the scanner agree about groups: no
word is refused for a group that is open at its end or for a brace, and it is refused exactly when
it holds a bare dollar sign. -/
theorem mark_word_fails_iff {line : Text} {tokens : List Token} (hline : tokenize line = .ok tokens)
    {word : Text} (hword : .word word ∈ tokens) (env : Environment) :
    ((∃ error, mark env word = .error error) ↔ HoldsBareDollar [] word) ∧
      ∀ error, mark env word = .error error → error = .missingName word ∧
        error.message ≠ "Unterminated quote or group." ∧
        error.message ≠ "Unexpected closing '\x7d' without corresponding '\x7b'." := by
  have hiff := mark_eq_error_iff env (openAfter_word hline hword)
  refine ⟨⟨?_, ?_⟩, ?_⟩
  · rintro ⟨error, herror⟩
    exact ((hiff error).1 herror).2
  · intro hbare
    exact ⟨.missingName word, (hiff _).2 ⟨rfl, hbare⟩⟩
  · intro error herror
    obtain ⟨rfl, -⟩ := (hiff error).1 herror
    exact ⟨rfl, toList_ne_toList (by decide), toList_ne_toList (by decide)⟩

/-- A word of nested groups: a variable and a dollar sign in single quotes inside braces, and a bare
dollar sign in double quotes behind them. -/
def nested : Text :=
  ['\x7b', '"', '$', 'a', '"', '\'', '$', '\'', '\x7d', '"', '$', '"']

theorem mark_word_fails_iff_nested :
    tokenize nested = .ok [.word nested] ∧ .word nested ∈ [Token.word nested] ∧
      ((∃ error, mark .empty nested = .error error) ↔ HoldsBareDollar [] nested) ∧
        ∀ error, mark .empty nested = .error error → error = .missingName nested ∧
          error.message ≠ "Unterminated quote or group." ∧
          error.message ≠ "Unexpected closing '\x7d' without corresponding '\x7b'." :=
  have hline : tokenize nested = .ok [.word nested] := rfl
  ⟨hline, List.mem_singleton_self _, mark_word_fails_iff hline (List.mem_singleton_self _) .empty⟩

end MemShell.Word
