import MemShell.Proofs.Map.Assoc
import MemShell.Proofs.Word.References

/-!
# Redirects among the words of a command

The words and the redirects of a command are gathered side by side, so that a redirect can stand
anywhere among the words. Of several redirects of a stream the last one counts. Main statement: a
redirect that is put anywhere but behind another operator changes nothing except where its stream
goes, one without a single target is an error, and one with a number that is too long to be read
breaks the command.
-/

namespace MemShell

/-- The stream that a token redirects. -/
def Token.stream? : Token → Option Int
  | redirect digits _ => (streamNumber digits).toOption.map (↑)
  | _ => none

/-- A redirect whose number is read redirects the stream of that number. -/
theorem Token.stream?_redirect {digits : Text} {number : Nat}
    (h : streamNumber digits = .ok number) (mode : RedirectMode) :
    (redirect digits mode).stream? = some number := by
  rw [stream?, h]
  rfl

/-- The number of a stream is read from a run of digits that is not too long. Without digits it is
that of the output. -/
theorem streamNumber_eq_ok_iff {digits : Text} {number : Nat} :
    streamNumber digits = .ok number ↔ digits = [] ∧ number = 1 ∨
      Text.isDecimal digits = true ∧ digits.length ≤ Text.maxDigits ∧
        number = Text.toNat digits := by
  cases digits with
  | nil => simp [streamNumber, Text.isDecimal, eq_comm]
  | cons c digits => simp [streamNumber, Text.readNat_eq_ok_iff]

/-- The last of the tokens that redirect a stream stands in front of a word that comes to the target
of the redirect. -/
def LastRedirect (expand : Text → Except ParseError (List Text)) (tokens : List Token)
    (stream : Int) (redirect : Redirect) : Prop :=
  ∃ front digits target back,
    tokens = front ++ .redirect digits redirect.mode :: .word target :: back ∧
      (Token.redirect digits redirect.mode).stream? = some stream ∧
        expand target = .ok [redirect.target] ∧ ∀ token ∈ back, token.stream? ≠ some stream

/-- The last redirect stays the last one behind another token. -/
theorem LastRedirect.cons {expand : Text → Except ParseError (List Text)} {tokens : List Token}
    {stream : Int} {redirect : Redirect} (h : LastRedirect expand tokens stream redirect)
    (token : Token) : LastRedirect expand (token :: tokens) stream redirect := by
  obtain ⟨front, digits, target, back, rfl, hredirect⟩ := h
  exact ⟨token :: front, digits, target, back, rfl, hredirect⟩

section Sequence

variable {ε α β : Type} {part : Except ε α} {next : α → Except ε β}

/-- One part after another succeeds if both of them do. -/
theorem ok_of_bind {result : β} (h : part >>= next = .ok result) :
    ∃ value, part = .ok value ∧ next value = .ok result := by
  cases part with
  | error error => cases h
  | ok value => exact ⟨value, rfl, h⟩

/-- One part after another fails with an error of one of them. -/
theorem error_of_bind {error : ε} (h : part >>= next = .error error) :
    part = .error error ∨ ∃ value, next value = .error error := by
  cases part with
  | error other => exact .inl (by cases h; rfl)
  | ok value => exact .inr ⟨value, h⟩

end Sequence

namespace Gathered

variable {expand : Text → Except ParseError (List Text)} {front back tokens : List Token}
  {gathered : Gathered} {stream : Int} {redirect : Redirect}

/-- Nothing is torn apart between tokens: where the ones in front end in an operator the others do
not start with its target. -/
def Seam (front back : List Token) : Prop :=
  ∀ digits mode target, front.getLast? = some (.redirect digits mode) →
    back.head? ≠ some (.word target)

/-- Tokens are not torn from a longer front if they are not torn from its end. -/
theorem Seam.of_cons {token : Token} (h : Seam (token :: front) back) : Seam front back := by
  intro digits mode target hlast
  refine h digits mode target ?_
  rw [List.getLast?_cons, hlast, Option.getD_some]

/-- An operator is not the target of another. -/
theorem Seam.of_redirect (front : List Token) {digits : Text} {mode : RedirectMode} :
    Seam front (.redirect digits mode :: back) := nofun

/-- A redirect with a single target is gathered in front of what comes after it, if its number is
read. -/
theorem ofTokens_redirect {target path digits : Text} {number : Nat}
    (h : expand target = .ok [path]) (hnumber : streamNumber digits = .ok number)
    (mode : RedirectMode) :
    ofTokens expand (.redirect digits mode :: .word target :: tokens) = do
      let rest ← ofTokens expand tokens
      return rest.before [] [((number : Int), ⟨mode, path⟩)] := by
  rw [ofTokens, h, hnumber]

/-- Otherwise it breaks the command. -/
theorem ofTokens_numeral {target path digits : Text} {error : NumeralError}
    (h : expand target = .ok [path]) (hnumber : streamNumber digits = .error error)
    (mode : RedirectMode) :
    ofTokens expand (.redirect digits mode :: .word target :: tokens) =
      .error (.numeral error) := by
  rw [ofTokens, h, hnumber]

/-- A redirect whose target is no single text is ambiguous. -/
theorem ofTokens_ambiguous {target : Text} {paths : List Text} (h : expand target = .ok paths)
    (hpaths : ∀ path, paths ≠ [path]) (digits : Text) (mode : RedirectMode) :
    ofTokens expand (.redirect digits mode :: .word target :: tokens) =
      .error (.refused (.ambiguousTarget target)) := by
  rw [ofTokens, h]
  match paths with
  | [] => rfl
  | [path] => exact absurd rfl (hpaths path)
  | _ :: _ :: _ => rfl

/-- A redirect that no word follows has no target. -/
theorem ofTokens_missing (h : ∀ target others, tokens ≠ .word target :: others) (digits : Text)
    (mode : RedirectMode) :
    ofTokens expand (.redirect digits mode :: tokens) =
      .error (.refused (.missingTarget (Token.redirect digits mode).text)) := by
  cases tokens with
  | nil => rfl
  | cons token tokens =>
    cases token with
    | word target => exact absurd rfl (h target tokens)
    | _ => rfl

/-- Tokens gather on from what those in front of them have gathered. -/
theorem ofTokens_append (hseam : Seam front back) :
    ofTokens expand (front ++ back) = do
      let first ← ofTokens expand front
      return (← ofTokens expand back).before first.words first.redirects := by
  fun_induction ofTokens expand front with
  | case1 => exact (bind_pure (ofTokens expand back)).symm
  | case2 value rest error herror =>
    rw [List.cons_append, ofTokens, herror]
    rfl
  | case3 value rest words hwords ih =>
    rw [List.cons_append, ofTokens, hwords, ih hseam.of_cons]
    simp only [bind_assoc, pure_bind, before, List.append_assoc, List.nil_append]
  | case4 digits mode target rest error herror =>
    rw [List.cons_append, List.cons_append, ofTokens, herror]
    rfl
  | case5 digits mode target rest path hpath error herror =>
    rw [List.cons_append, List.cons_append, ofTokens_numeral hpath herror]
    rfl
  | case6 digits mode target rest path hpath number hnumber ih =>
    rw [List.cons_append, List.cons_append, ofTokens_redirect hpath hnumber,
      ih hseam.of_cons.of_cons]
    simp only [bind_assoc, pure_bind, before, List.append_assoc, List.nil_append]
  | case7 digits mode target rest paths hpaths htarget =>
    rw [List.cons_append, List.cons_append, ofTokens_ambiguous htarget hpaths]
    rfl
  | case8 digits mode rest hrest =>
    rw [List.cons_append, ofTokens_missing]
    · rfl
    · intro target others heq
      rcases rest with _ | ⟨token, rest⟩
      · exact hseam digits mode target rfl (by rw [← back.nil_append, heq, List.head?_cons])
      · exact hrest target rest (by rw [(List.cons.inj heq).1])
  | case9 rest ih => rw [List.cons_append, ofTokens, ih hseam.of_cons]

/-- The redirects of a command are those of its tokens in their order. -/
theorem streams_of_ofTokens (h : ofTokens expand tokens = .ok gathered) :
    Assoc.keys gathered.redirects = tokens.filterMap Token.stream? := by
  fun_induction ofTokens expand tokens generalizing gathered with
  | case1 =>
    cases h
    rfl
  | case3 value rest words hwords ih =>
    obtain ⟨last, hlast, h⟩ := ok_of_bind h
    cases h
    exact (ih hlast :)
  | case6 digits mode target rest path hpath number hnumber ih =>
    obtain ⟨last, hlast, h⟩ := ok_of_bind h
    cases h
    rw [List.filterMap_cons_some (Token.stream?_redirect hnumber mode)]
    exact congrArg _ (ih hlast)
  | case9 rest ih => exact ih h
  | case2 | case4 | case5 | case7 | case8 => contradiction

/-- The redirect of a stream that counts, which is the last one. -/
def redirect? (gathered : Gathered) (stream : Int) : Option Redirect :=
  gathered.redirects.reverse.lookup stream

/-- A redirect that counts is one of those that came. -/
theorem mem_of_redirect? (h : gathered.redirect? stream = some redirect) :
    (stream, redirect) ∈ gathered.redirects := List.mem_reverse.1 (Assoc.mem_of_lookup h)

/-- A redirect counts before those that came in front of it. -/
theorem redirect?_before (words : List Text) (redirects : List (Int × Redirect))
    (gathered : Gathered) (stream : Int) :
    (gathered.before words redirects).redirect? stream =
      (gathered.redirect? stream).or (redirects.reverse.lookup stream) := by
  rw [redirect?, before, List.reverse_append, List.lookup_append]
  rfl

/-- A stream has no redirect that counts exactly if no token redirects it. -/
theorem redirect?_eq_none_iff (h : ofTokens expand tokens = .ok gathered) :
    gathered.redirect? stream = none ↔ ∀ token ∈ tokens, token.stream? ≠ some stream := by
  rw [redirect?, Assoc.lookup_eq_none_iff, Assoc.keys, List.map_reverse, List.mem_reverse,
    show gathered.redirects.map Prod.fst = _ from streams_of_ofTokens h, List.mem_filterMap]
  simp only [not_exists, not_and, ne_eq]

/-- A redirect that counts is the last one among the tokens. -/
theorem lastRedirect_of_redirect? (h : ofTokens expand tokens = .ok gathered)
    (hredirect : gathered.redirect? stream = some redirect) :
    LastRedirect expand tokens stream redirect := by
  fun_induction ofTokens expand tokens generalizing gathered with
  | case1 =>
    cases h
    cases hredirect
  | case3 value rest words hwords ih =>
    obtain ⟨last, hlast, h⟩ := ok_of_bind h
    cases h
    exact (ih hlast hredirect).cons _
  | case6 digits mode target rest path hpath number hnumber ih =>
    obtain ⟨last, hlast, h⟩ := ok_of_bind h
    cases h
    rw [redirect?_before, Option.or_eq_some_iff] at hredirect
    rcases hredirect with hredirect | ⟨hnone, hredirect⟩
    · exact ((ih hlast hredirect).cons _).cons _
    · obtain ⟨rfl, rfl⟩ : stream = number ∧ redirect = ⟨mode, path⟩ := by
        rw [List.reverse_singleton, Assoc.lookup_cons_eq_ite] at hredirect
        split at hredirect
        · next hstream => exact ⟨hstream, (Option.some.inj hredirect).symm⟩
        · cases hredirect
      exact ⟨[], digits, target, rest, rfl, Token.stream?_redirect hnumber mode, hpath,
        (redirect?_eq_none_iff hlast).1 hnone⟩
  | case9 rest ih => exact (ih h hredirect).cons _
  | case2 | case4 | case5 | case7 | case8 => contradiction

/-- The last redirect among the tokens counts. -/
theorem redirect?_of_lastRedirect (h : ofTokens expand tokens = .ok gathered)
    (hlast : LastRedirect expand tokens stream redirect) :
    gathered.redirect? stream = some redirect := by
  obtain ⟨front, digits, target, back, rfl, hstream, htarget, hback⟩ := hlast
  obtain ⟨number, hnumber, rfl⟩ : ∃ number, streamNumber digits = .ok number ∧
      (number : Int) = stream := by
    cases hread : streamNumber digits with
    | error error => rw [Token.stream?, hread] at hstream; cases hstream
    | ok number =>
      rw [Token.stream?_redirect hread] at hstream
      exact ⟨number, rfl, Option.some.inj hstream⟩
  rw [ofTokens_append (Seam.of_redirect front), ofTokens_redirect htarget hnumber] at h
  obtain ⟨first, -, h⟩ := ok_of_bind h
  obtain ⟨second, hsecond, h⟩ := ok_of_bind h
  obtain ⟨last, hlast, hsecond⟩ := ok_of_bind hsecond
  cases h
  cases hsecond
  have hnone := (redirect?_eq_none_iff hlast).2 hback
  rw [redirect?_before, redirect?_before, hnone, List.reverse_singleton,
    Assoc.lookup_cons_eq_ite, if_pos rfl]
  rfl

/-- The error of a redirect in front of tokens that do not start with a word for a single text. -/
inductive Aimless (expand : Text → Except ParseError (List Text)) (digits : Text)
    (mode : RedirectMode) : List Token → ParseError → Prop
  /-- No word follows. -/
  | missing {rest : List Token} (h : ∀ target, rest.head? ≠ some (.word target)) :
    Aimless expand digits mode rest (.missingTarget (Token.redirect digits mode).text)
  /-- The word that follows stands for no text or for several. -/
  | ambiguous {target : Text} {paths : List Text} {rest : List Token}
    (h : expand target = .ok paths) (hpaths : paths.length ≠ 1) :
    Aimless expand digits mode (.word target :: rest) (.ambiguousTarget target)

/-- A redirect without a single target is an error. -/
theorem Aimless.ofTokens_eq {digits : Text} {mode : RedirectMode} {error : ParseError}
    (h : Aimless expand digits mode tokens error) :
    ofTokens expand (.redirect digits mode :: tokens) = .error (.refused error) := by
  cases h with
  | missing h =>
    refine ofTokens_missing (fun target rest heq => h target ?_) digits mode
    rw [heq, List.head?_cons]
  | @ambiguous target paths rest h hpaths =>
    refine ofTokens_ambiguous h (fun path heq => hpaths ?_) digits mode
    rw [heq, List.length_singleton]

end Gathered

namespace Invocation

open Gathered

variable {env : Environment} {fs : FileSystem} {gathered other : Gathered} {invocation : Invocation}

/-- The words that have been gathered decide about everything but the redirects. -/
theorem ofGathered_of_words (h : ofGathered gathered = .ok invocation)
    (hwords : other.words = gathered.words) :
    ofGathered other = .ok { invocation with redirects := .ofList other.redirects } := by
  rw [ofGathered] at h ⊢
  rw [hwords]
  split at h
  · cases h
    rfl
  · split at h
    · cases h
    · cases h
      rfl

/-- The redirects that have been gathered are stored one after the other. -/
theorem redirects_ofGathered (h : ofGathered gathered = .ok invocation) :
    invocation.redirects = .ofList gathered.redirects := by
  have hsame := ofGathered_of_words h rfl
  rw [h] at hsame
  exact congrArg redirects (Except.ok.inj hsame)

/-- The redirects of a command are the ones that count. -/
theorem redirect?_ofGathered (h : ofGathered gathered = .ok invocation) (stream : Int) :
    invocation.redirect? stream = gathered.redirect? stream := by
  rw [redirect?, redirects_ofGathered h]
  exact Assoc.lookup_ofList gathered.redirects stream

/-- A command is made up by what its tokens have gathered. -/
theorem ofTokens_eq_ok_iff {tokens : List Token} :
    ofTokens env fs tokens = .ok invocation ↔
      ∃ gathered, Gathered.ofTokens (Word.expand env fs) tokens = .ok gathered ∧
        ofGathered gathered = .ok invocation := by
  rw [ofTokens]
  cases Gathered.ofTokens (Word.expand env fs) tokens with
  | error failure => simp
  | ok gathered =>
    cases hgathered : ofGathered gathered with
    | error error => simp [hgathered]
    | ok other => simp [hgathered]

/-- Tokens that fail make the command fail. -/
theorem ofTokens_of_error {tokens : List Token} {failure : ParseFailure}
    (h : Gathered.ofTokens (Word.expand env fs) tokens = .error failure) :
    ofTokens env fs tokens = .error failure := by
  rw [ofTokens, h]

/-- The redirects of a command stand in the order in which its tokens first redirect the streams,
and each of them is the last one of its stream. -/
theorem redirects_ofTokens {tokens : List Token}
    (h : ofTokens env fs tokens = .ok invocation) :
    invocation.redirects.keys = (tokens.filterMap Token.stream?).eraseDups ∧
      ∀ entry ∈ invocation.redirects.entries,
        LastRedirect (Word.expand env fs) tokens entry.1 entry.2 := by
  obtain ⟨gathered, hgathered, hinvocation⟩ := ofTokens_eq_ok_iff.1 h
  refine ⟨?_, fun entry hentry => ?_⟩
  · rw [redirects_ofGathered hinvocation, ← streams_of_ofTokens hgathered]
    exact Assoc.keys_ofList gathered.redirects
  · have hcounts : gathered.redirect? entry.1 = some entry.2 := by
      rw [← redirect?_ofGathered hinvocation]
      exact (Assoc.lookup_eq_some_iff invocation.redirects.nodup).2 hentry
    exact lastRedirect_of_redirect? hgathered hcounts

/-- Another redirect among the tokens of a command leaves the command as it is. -/
theorem ofTokens_insert {before after : List Token} {target path digits : Text} {number : Nat}
    (hseam : Seam before after) (hpath : Word.expand env fs target = .ok [path])
    (hnumber : streamNumber digits = .ok number)
    (h : ofTokens env fs (before ++ after) = .ok invocation) (mode : RedirectMode) :
    ∃ redirects,
      ofTokens env fs (before ++ .redirect digits mode :: .word target :: after) =
        .ok { invocation with redirects } := by
  obtain ⟨gathered, hgathered, hinvocation⟩ := ofTokens_eq_ok_iff.1 h
  rw [ofTokens_append hseam] at hgathered
  obtain ⟨first, hfirst, hgathered⟩ := ok_of_bind hgathered
  obtain ⟨last, hlast, hgathered⟩ := ok_of_bind hgathered
  cases hgathered
  have hinserted : Gathered.ofTokens (Word.expand env fs)
      (before ++ .redirect digits mode :: .word target :: after) =
        .ok ((last.before [] [((number : Int), ⟨mode, path⟩)]).before
          first.words first.redirects) := by
    rw [ofTokens_append (Seam.of_redirect before), ofTokens_redirect hpath hnumber, hfirst, hlast]
    rfl
  exact ⟨_, ofTokens_eq_ok_iff.2 ⟨_, hinserted, ofGathered_of_words hinvocation rfl⟩⟩

/-- Whatever makes the tokens from an operator on fail makes the command fail, unless the tokens in
front of it do so. -/
theorem ofTokens_append_error {before rest : List Token} {digits : Text} {mode : RedirectMode}
    {failure : ParseFailure}
    (hrest : Gathered.ofTokens (Word.expand env fs) (.redirect digits mode :: rest) =
      .error failure) :
    (∀ gathered, Gathered.ofTokens (Word.expand env fs) before = .ok gathered →
      ofTokens env fs (before ++ .redirect digits mode :: rest) = .error failure) ∧
    ∀ earlier, Gathered.ofTokens (Word.expand env fs) before = .error earlier →
      ofTokens env fs (before ++ .redirect digits mode :: rest) = .error earlier := by
  refine ⟨fun gathered hbefore => ofTokens_of_error ?_, fun earlier hbefore => ofTokens_of_error ?_⟩
  · rw [ofTokens_append (Seam.of_redirect before), hbefore, hrest]
    rfl
  · rw [ofTokens_append (Seam.of_redirect before), hbefore]
    rfl

/-- A redirect whose number is read can be put anywhere among the tokens of a command without a
change to the command, its options and its arguments, but not between an operator and its target.
Each stream goes where the last of its redirects says. A redirect without a single target makes the
command fail, unless the tokens in front of it do so, and one whose number is not read breaks it. A
number is not read exactly if it has too many digits. -/
theorem redirects_anywhere (env : Environment) (fs : FileSystem) :
    (∀ before after digits number mode target path invocation, Seam before after →
      streamNumber digits = .ok number → Word.expand env fs target = .ok [path] →
      ofTokens env fs (before ++ after) = .ok invocation →
        ∃ inserted,
          ofTokens env fs (before ++ .redirect digits mode :: .word target :: after) =
              .ok inserted ∧
            inserted.command = invocation.command ∧ inserted.options = invocation.options ∧
            inserted.args = invocation.args ∧ inserted.isEmpty = invocation.isEmpty) ∧
    (∀ tokens invocation, ofTokens env fs tokens = .ok invocation → ∀ stream redirect,
      invocation.redirect? stream = some redirect ↔
        LastRedirect (Word.expand env fs) tokens stream redirect) ∧
    (∀ before digits mode rest error, Aimless (Word.expand env fs) digits mode rest error →
      (∀ gathered, Gathered.ofTokens (Word.expand env fs) before = .ok gathered →
        ofTokens env fs (before ++ .redirect digits mode :: rest) = .error (.refused error)) ∧
      ∀ earlier, Gathered.ofTokens (Word.expand env fs) before = .error earlier →
        ofTokens env fs (before ++ .redirect digits mode :: rest) = .error earlier) ∧
    (∀ before after digits error mode target path invocation, Seam before after →
      streamNumber digits = .error error → Word.expand env fs target = .ok [path] →
      ofTokens env fs (before ++ after) = .ok invocation →
        ofTokens env fs (before ++ .redirect digits mode :: .word target :: after) =
          .error (.numeral error)) ∧
    ∀ digits number, streamNumber digits = .ok number ↔ digits = [] ∧ number = 1 ∨
      Text.isDecimal digits = true ∧ digits.length ≤ Text.maxDigits ∧
        number = Text.toNat digits := by
  refine ⟨fun before after digits number mode target path invocation hseam hnumber hpath h => ?_,
    fun tokens invocation h stream redirect => ?_,
    fun before digits mode rest error h => ofTokens_append_error h.ofTokens_eq,
    fun before after digits error mode target path invocation hseam hnumber hpath h => ?_,
    fun digits number => streamNumber_eq_ok_iff⟩
  · obtain ⟨redirects, hinserted⟩ := ofTokens_insert hseam hpath hnumber h mode
    exact ⟨_, hinserted, rfl, rfl, rfl, rfl⟩
  · obtain ⟨gathered, hgathered, hinvocation⟩ := ofTokens_eq_ok_iff.1 h
    rw [redirect?_ofGathered hinvocation]
    exact ⟨lastRedirect_of_redirect? hgathered, redirect?_of_lastRedirect hgathered⟩
  · obtain ⟨gathered, hgathered, -⟩ := ofTokens_eq_ok_iff.1 h
    rw [ofTokens_append hseam] at hgathered
    obtain ⟨first, hfirst, -⟩ := ok_of_bind hgathered
    exact (ofTokens_append_error (ofTokens_numeral hpath hnumber mode)).1 first hfirst

/-- A command with two redirects of one stream, cut in two. -/
def scattered : List Token × List Token :=
  ([.redirect ['1'] .write, .word (Word.quote ['a']), .word (Word.quote "run")],
    [.word (Word.quote "-x"), .redirect "01" .append, .word (Word.quote ['b']),
      .word (Word.quote ['y'])])

theorem redirects_anywhere_scattered :
    ∃ inserted,
      ofTokens default default
          (scattered.1 ++ .redirect [] .write :: .word (Word.quote ['c']) :: scattered.2) =
            .ok inserted ∧
        inserted.command = some "run" ∧ inserted.args = [['y']] ∧
        inserted.redirect? 1 = some ⟨.append, ['b']⟩ ∧
        ofTokens default default
            (scattered.1 ++ [.redirect [] .write, .word (Word.reference ['n'])]) =
          .error (.refused (.ambiguousTarget (Word.reference ['n']))) ∧
        ofTokens default default (scattered.1 ++ [.redirect ['2'] .append, .redirect [] .write]) =
          .error (.refused (.missingTarget "2>>")) := by
  obtain ⟨hinsert, hlast, hfails, -⟩ := redirects_anywhere default default
  have hfront : Gathered.ofTokens (Word.expand default default) scattered.1 =
      .ok ⟨["run"], [(1, ⟨.write, ['a']⟩)]⟩ := by
    simp only [scattered, Gathered.ofTokens, Word.expand_quote]
    rfl
  have hback : Gathered.ofTokens (Word.expand default default) scattered.2 =
      .ok ⟨["-x", ['y']], [(1, ⟨.append, ['b']⟩)]⟩ := by
    simp only [scattered, Gathered.ofTokens, Word.expand_quote]
    rfl
  have hseam : Seam scattered.1 scattered.2 := fun digits mode target h => by cases h
  have hparse : ofTokens default default (scattered.1 ++ scattered.2) =
      .ok ⟨some "run", .ofList [(['x'], none)], [['y']], .ofList [(1, ⟨.append, ['b']⟩)]⟩ := by
    rw [ofTokens, ofTokens_append hseam, hfront, hback]
    rfl
  obtain ⟨inserted, hinserted, hcommand, -, hargs, -⟩ :=
    hinsert _ _ [] 1 .write _ _ _ hseam rfl (Word.expand_quote default default ['c']) hparse
  have hcounts : LastRedirect (Word.expand default default)
      (scattered.1 ++ .redirect [] .write :: .word (Word.quote ['c']) :: scattered.2) 1
        ⟨.append, ['b']⟩ :=
    ⟨scattered.1 ++ [.redirect [] .write, .word (Word.quote ['c']), .word (Word.quote "-x")], "01",
      Word.quote ['b'], [.word (Word.quote ['y'])], rfl, rfl, Word.expand_quote _ _ _, by decide⟩
  have hnone : Word.expand default default (Word.reference ['n']) = .ok [] :=
    Word.expand_reference ⟨by decide, List.forall_mem_singleton.2 rfl⟩ default default
  have hmissing : Aimless (Word.expand default default) ['2'] .append [.redirect [] .write]
      (.missingTarget "2>>") := .missing fun target h => by cases h
  exact ⟨inserted, hinserted, hcommand, hargs, (hlast _ _ hinserted 1 _).2 hcounts,
    (hfails _ _ _ _ _ (.ambiguous hnone (by decide))).1 _ hfront,
    (hfails _ _ _ _ _ hmissing).1 _ hfront⟩

/-- The digits of a number that is too long to be read. -/
def longDigits : Text := List.replicate 4301 '1'

/-- A redirect of a stream with such a number makes a command fail that is parsed without it, and
not for want of a target. -/
theorem redirects_anywhere_longDigits :
    ofTokens default default [.word (Word.quote "run")] =
        .ok ⟨some "run", .empty, [], .empty⟩ ∧
      Word.expand default default (Word.quote ['f']) = .ok [['f']] ∧
      ofTokens default default
          [.word (Word.quote "run"), .redirect longDigits .write, .word (Word.quote ['f'])] =
        .error (.numeral (.tooLong 4301)) := by
  have hrun := Word.expand_quote default default "run"
  have htarget := Word.expand_quote default default ['f']
  have hnumber : streamNumber longDigits = .error (.tooLong 4301) :=
    streamNumber_replicate (by decide) (by decide)
  refine ⟨?_, htarget, ofTokens_of_error ?_⟩
  · rw [ofTokens, Gathered.ofTokens, hrun]
    rfl
  · rw [Gathered.ofTokens, hrun, ofTokens_numeral htarget hnumber]
    rfl

end Invocation

end MemShell
