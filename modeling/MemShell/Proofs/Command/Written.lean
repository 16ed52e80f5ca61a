import Mathlib.Algebra.Ring.Int.Defs
import MemShell.Proofs.Command.Options
import MemShell.Proofs.Command.Redirects
import MemShell.Proofs.Word.Quoting

/-!
# Written commands

A command is written as its quoted name, its quoted options with two dashes each, the end of the
options, its quoted arguments, and its redirects. Main statement: a written command is read back as
itself, in every environment and every file system, unless the number of a stream is too long to be
read.
-/

namespace MemShell

namespace Options

/-- An option as a word, before it is quoted. -/
def written : Text × Option Text → Text
  | (key, none) => ['-', '-'] ++ key
  | (key, some value) => ['-', '-'] ++ key ++ '=' :: value

/-- A name that an option can be written with: it is not empty, does not start with a digit, and
holds no equals sign and no space. -/
structure IsWritable (key : Text) : Prop where
  /-- There is a first character, and it is no digit. -/
  starts : ∃ c rest, key = c :: rest ∧ Text.isDigit c = false
  /-- The name ends where a value may begin. -/
  noEquals : '=' ∉ key
  /-- A word with a space in its name is an argument. -/
  noSpace : ' ' ∉ key

/-- A written option sets its name. -/
theorem classify_written {key : Text} (h : IsWritable key) (value : Option Text) :
    classify (written (key, value)) = .settings [(key, value)] := by
  obtain ⟨c, rest, rfl, hc⟩ := h.starts
  have hname : isName (c :: rest) = true := by simp [isName, hc]
  have hcut : '=' ∉ '-' :: '-' :: c :: rest := by simpa using h.noEquals
  cases value with
  | none =>
    have hkey : Text.cutAt '=' ('-' :: '-' :: c :: rest) = ('-' :: '-' :: c :: rest, none) :=
      Text.cutAt_of_not_mem hcut
    simp [written, classify, hkey, h.noSpace, hname]
  | some value =>
    have hkey : Text.cutAt '=' ('-' :: '-' :: c :: (rest ++ '=' :: value)) =
        ('-' :: '-' :: c :: rest, some value) :=
      Text.cutAt_append hcut value
    simp [written, classify, hkey, h.noSpace, hname]

/-- Written options are read up to the end of the options. -/
theorem readFrom_written {pairs : List (Text × Option Text)} (h : ∀ pair ∈ pairs, IsWritable pair.1)
    (options : Options) (args : List Text) :
    readFrom options (pairs.map written ++ ['-', '-'] :: args) =
      .ok (options.setAll pairs, args) := by
  induction pairs generalizing options with
  | nil => rfl
  | cons pair pairs ih =>
    rw [List.forall_mem_cons] at h
    rw [List.map_cons, List.cons_append, readFrom, classify_written h.1]
    exact ih h.2 _

/-- Setting all options of a map makes the map. -/
theorem setAll_entries (options : Options) :
    Options.setAll .empty options.entries = options := by
  refine OrderedMap.eq_of_entries ?_
  rw [setAll, OrderedMap.entries_foldl_insert]
  exact Assoc.foldl_put options.nodup

end Options

namespace Token

/-- A digit is not blank. -/
private theorem isBlank_digit {c : Char} (h : c.isDigit = true) : Text.isBlank c = false := by
  simp only [Char.isDigit, Bool.and_eq_true, decide_eq_true_eq, UInt32.le_iff_toNat_le,
    ge_iff_le] at h
  change 48 ≤ c.toNat ∧ c.toNat ≤ 57 at h
  rw [← Bool.not_eq_true]
  intro hb
  simp only [Text.isBlank, Text.blankRanges, CharRanges.has, List.any_cons, List.any_nil,
    Bool.or_eq_true, Bool.and_eq_true, decide_eq_true_eq, Bool.false_eq_true, or_false] at hb
  omega

/-- A digit has no meaning of its own outside all groups. -/
private theorem scan_digit {c : Char} (h : c.isDigit = true) (position : Nat)
    (current rest : Text) :
    scan position [] current (c :: rest) = scan (position + 1) [] (current ++ [c]) rest := by
  have hne {d : Char} (hd : d.isDigit = false) : c ≠ d := by
    rintro rfl
    exact Bool.noConfusion (h.symm.trans hd)
  have hboundary : ¬IsBoundary c := by
    rintro (hb | hs)
    · exact Bool.noConfusion (hb.symm.trans (isBlank_digit h))
    · exact hne (by decide) hs
  exact scan_plain _ _ _ (hne (by decide))
    (groupStep_nil (hne (by decide)) (hne (by decide)) (hne (by decide)) (hne (by decide)))
    hboundary (hne (by decide))

/-- Digits are collected as a word. -/
theorem scan_digits {digits : Text} (h : ∀ c ∈ digits, c.isDigit = true) (position : Nat)
    (current rest : Text) :
    scan position [] current (digits ++ rest) =
      scan (position + digits.length) [] (current ++ digits) rest := by
  induction digits generalizing position current with
  | nil => simp
  | cons c digits ih =>
    rw [List.forall_mem_cons] at h
    rw [List.cons_append, scan_digit h.1, ih h.2]
    simp [Nat.add_comm, Nat.add_left_comm]

end Token

/-- A redirect of a stream, with a gap between the operator and its target. -/
def Redirect.written (gap : Text) (stream : Int) (redirect : Redirect) : Text :=
  Text.ofInt stream ++ redirect.mode.operator ++ gap ++ Word.quote redirect.target

/-- The tokens of a written redirect: its operator and its target. -/
def Redirect.tokens (stream : Int) (redirect : Redirect) : List Token :=
  [.redirect (Text.ofInt stream) redirect.mode, .word (Word.quote redirect.target)]

/-- How many digits the number of a written redirect has if they are too many to be read. -/
def Redirect.overlong? (entry : Int × Redirect) : Option Nat :=
  let digits := (Text.ofInt entry.1).length
  if Text.maxDigits < digits then some digits else none

/-- A number can be read exactly if it is less than a power of ten. -/
theorem Redirect.overlong?_eq_none_iff {entry : Int × Redirect} (h : 0 ≤ entry.1) :
    overlong? entry = none ↔ entry.1 < 10 ^ Text.maxDigits := by
  obtain ⟨stream, redirect⟩ := entry
  obtain ⟨n, rfl⟩ := Int.eq_ofNat_of_zero_le h
  have hlength : (Text.ofNat n).length ≤ Text.maxDigits ↔ n < 10 ^ Text.maxDigits :=
    Nat.length_toDigits_le_iff (by decide) (by decide)
  have hcast : (n : Int) < 10 ^ Text.maxDigits ↔ n < 10 ^ Text.maxDigits := by norm_cast
  rw [hcast, ← hlength, overlong?, ite_eq_right_iff, ← Nat.not_lt]
  constructor
  · intro hshort hlong
    cases hshort hlong
  · exact fun hshort hlong => absurd hlong hshort

/-- A written redirect is one operator and one word. -/
theorem tokenize_redirect {gap : Text} (hgap : ∀ c ∈ gap, Text.isBlank c = true) {stream : Int}
    (hstream : 0 ≤ stream) (redirect : Redirect) :
    Token.tokenize (redirect.written gap stream) = .ok (redirect.tokens stream) := by
  obtain ⟨n, rfl⟩ := Int.eq_ofNat_of_zero_le hstream
  have hdigits : ∀ c ∈ Text.ofNat n, c.isDigit = true := fun c hc =>
    Nat.isDigit_of_mem_toDigits (by decide) (by decide) hc
  have hoperator (mode : RedirectMode) :
      Token.ofRedirect (Text.ofNat n) mode = [.redirect (Text.ofNat n) mode] := by
    rw [Token.ofRedirect, if_pos (Text.isDecimal_ofNat n)]
  have htarget (position : Nat) : Token.scan position [] [] (gap ++ Word.quote redirect.target) =
      .ok [.word (Word.quote redirect.target)] := by
    rw [Token.scan_blanks _ _ hgap, Token.scan_eq_ok (Word.tokenize_quote redirect.target)]
  have hhead : (gap ++ Word.quote redirect.target).head? ≠ some '>' := by
    cases gap with
    | nil => rcases Word.head?_quote redirect.target with h | h <;> simp [h]
    | cons c gap =>
      have hc : c ≠ '>' := by
        rintro rfl
        exact absurd (hgap _ List.mem_cons_self) (by decide)
      simpa using hc
  rw [Redirect.written, List.append_assoc, List.append_assoc, Token.tokenize]
  change Token.scan 0 [] [] (Text.ofNat n ++ _) = .ok [.redirect (Text.ofNat n) _, _]
  rw [Token.scan_digits hdigits, List.nil_append]
  cases redirect.mode with
  | write =>
    simp only [RedirectMode.operator]
    rw [List.singleton_append, Token.scan_write _ _ hhead, hoperator, htarget]
    rfl
  | append =>
    simp only [RedirectMode.operator]
    rw [List.cons_append, List.singleton_append, Token.scan_append, hoperator, htarget]
    rfl

namespace Gathered

/-- Words that stand for one text each give these texts. -/
theorem ofTokens_words {expand : Text → Except ParseError (List Text)} {words texts : List Text}
    (h : List.Forall₂ (fun word text => expand word = .ok [text]) words texts)
    (rest : List Token) :
    ofTokens expand (words.map .word ++ rest) =
      (ofTokens expand rest).map (before texts [] ·) := by
  induction h with
  | nil =>
    rw [List.map_nil, List.nil_append]
    cases ofTokens expand rest <;> rfl
  | cons hword hwords ih =>
    rw [List.map_cons, List.cons_append, ofTokens, hword]
    dsimp only
    rw [ih]
    cases ofTokens expand rest <;> rfl

/-- Redirects to quoted targets are gathered as they are, up to the first whose number is too long.
-/
theorem ofTokens_redirects {expand : Text → Except ParseError (List Text)}
    (hexpand : ∀ text, expand (Word.quote text) = .ok [text]) {redirects : List (Int × Redirect)}
    (h : ∀ pair ∈ redirects, 0 ≤ pair.1) :
    ofTokens expand (redirects.flatMap fun pair => pair.2.tokens pair.1) =
      match redirects.findSome? Redirect.overlong? with
      | none => .ok ⟨[], redirects⟩
      | some digits => .error (.numeral (.tooLong digits)) := by
  induction redirects with
  | nil => rfl
  | cons pair redirects ih =>
    obtain ⟨stream, redirect⟩ := pair
    rw [List.forall_mem_cons] at h
    obtain ⟨n, rfl⟩ := Int.eq_ofNat_of_zero_le h.1
    have hnumber := streamNumber_ofNat n
    rw [List.flatMap_cons, List.findSome?_cons]
    change ofTokens expand (.redirect (Text.ofNat n) redirect.mode ::
      .word (Word.quote redirect.target) :: redirects.flatMap fun pair => pair.2.tokens pair.1) = _
    by_cases hlong : Text.maxDigits < (Text.ofNat n).length
    · have hoverlong : Redirect.overlong? ((n : Int), redirect) = some (Text.ofNat n).length :=
        if_pos hlong
      rw [if_pos hlong] at hnumber
      rw [ofTokens_numeral (hexpand _) hnumber, hoverlong]
    · have hoverlong : Redirect.overlong? ((n : Int), redirect) = none := if_neg hlong
      rw [if_neg hlong] at hnumber
      rw [ofTokens_redirect (hexpand _) hnumber, ih h.2, hoverlong]
      cases redirects.findSome? Redirect.overlong? <;> rfl

end Gathered

/-- Tokens without separators are one piece. -/
theorem Token.pieces_of_not_mem {tokens : List Token} (h : .separator ∉ tokens) :
    Token.pieces tokens = [tokens] := by
  induction tokens with
  | nil => rfl
  | cons token tokens ih =>
    rw [List.mem_cons, not_or] at h
    cases token with
    | separator => exact absurd rfl h.1
    | word value => rw [pieces, ih h.2]; simp
    | redirect digits mode => rw [pieces, ih h.2]; simp

namespace Invocation

/-- The words of a written command: its name, its options, the end of the options, its arguments. -/
def words (invocation : Invocation) : List Text :=
  Word.quote invocation.commandName ::
    (invocation.options.entries.map fun pair => Word.quote (Options.written pair)) ++
    ['-', '-'] :: invocation.args.map Word.quote

/-- A command as a line, with a gap between each redirect operator and its target. -/
def written (gap : Text) (invocation : Invocation) : Text :=
  Text.join [' '] (invocation.words ++
    invocation.redirects.entries.map fun pair => pair.2.written gap pair.1)

/-- The tokens of a written command. -/
def tokens (invocation : Invocation) : List Token :=
  invocation.words.map .word ++
    invocation.redirects.entries.flatMap fun pair => pair.2.tokens pair.1

/-- A command that can be written: its name is in lower case, its options have names, and it
redirects numbered streams. -/
structure IsWritable (invocation : Invocation) : Prop where
  /-- There is a name, and it stays as it is in lower case. -/
  command : ∃ name, invocation.command = some name ∧ Text.lower name = name
  /-- Every option can be written. -/
  options : ∀ pair ∈ invocation.options.entries, Options.IsWritable pair.1
  /-- Every stream has a number. -/
  streams : ∀ pair ∈ invocation.redirects.entries, 0 ≤ pair.1

/-- The length of the first number of a stream that is too long to be read, if there is one. -/
def overlong? (invocation : Invocation) : Option Nat :=
  invocation.redirects.entries.findSome? Redirect.overlong?

variable {invocation : Invocation}

/-- All numbers of streams can be read exactly if they are less than a power of ten. -/
theorem overlong?_eq_none_iff (h : invocation.IsWritable) :
    invocation.overlong? = none ↔
      ∀ pair ∈ invocation.redirects.entries, pair.1 < 10 ^ Text.maxDigits := by
  rw [overlong?, List.findSome?_eq_none_iff]
  exact forall₂_congr fun pair hpair => Redirect.overlong?_eq_none_iff (h.streams pair hpair)

/-- The end of the options is a word that stands for itself. -/
private theorem expand_dashes (env : Environment) (fs : FileSystem) :
    Word.expand env fs ['-', '-'] = .ok [['-', '-']] := by
  refine Word.expand_of_mark ?_ (.inl (by simp)) fs
  rw [Word.mark_eq_resolve env (by decide)]
  simp [Word.resolve, Group.ofQuote?, Marked.isGlobChar, Except.map, Marked.escape, Marked.marker]

/-- A written command is split into its words and its redirects. -/
theorem tokenize_written {gap : Text} (hgap : ∀ c ∈ gap, Text.isBlank c = true)
    (h : invocation.IsWritable) :
    Token.tokenize (invocation.written gap) = .ok invocation.tokens := by
  have hwords : ∀ word ∈ invocation.words, Token.tokenize word = .ok [.word word] := by
    intro word hword
    simp only [words, List.cons_append, List.mem_cons, List.mem_append, List.mem_map] at hword
    rcases hword with rfl | ⟨pair, -, rfl⟩ | rfl | ⟨arg, -, rfl⟩
    · exact Word.tokenize_quote _
    · exact Word.tokenize_quote _
    · rfl
    · exact Word.tokenize_quote arg
  have hredirects : ∀ pair ∈ invocation.redirects.entries,
      Token.tokenize (pair.2.written gap pair.1) = .ok (pair.2.tokens pair.1) :=
    fun pair hpair => tokenize_redirect hgap (h.streams pair hpair) pair.2
  let Splits (piece : Text) (found : List Token) : Prop := Token.tokenize piece = .ok found
  have hfront : List.Forall₂ Splits invocation.words
      (invocation.words.map fun word => [.word word]) :=
    List.forall₂_map_right_iff.2 (List.forall₂_same.2 hwords)
  have hback : List.Forall₂ Splits
      (invocation.redirects.entries.map fun pair => pair.2.written gap pair.1)
      (invocation.redirects.entries.map fun pair => pair.2.tokens pair.1) :=
    List.forall₂_map_left_iff.2 (List.forall₂_map_right_iff.2 (List.forall₂_same.2 hredirects))
  rw [written, Token.tokenize_join (List.rel_append hfront hback), List.flatten_append,
    ← List.flatMap_def, ← List.flatMap_def, ← List.map_eq_flatMap, tokens]

/-- A written command is split into one command. -/
theorem split_written {gap : Text} (hgap : ∀ c ∈ gap, Text.isBlank c = true)
    (h : invocation.IsWritable) :
    Token.split (invocation.written gap) = .ok [invocation.tokens] := by
  have hseparator : .separator ∉ invocation.tokens := by
    simp [tokens, Redirect.tokens]
  have hne : invocation.tokens ≠ [] := by simp [tokens, words]
  rw [Token.split, tokenize_written hgap h]
  simp [Except.map, Token.commands, Token.pieces_of_not_mem hseparator, hne]

/-- The tokens of a written command are the command, unless the number of a stream is too long. -/
theorem ofTokens_tokens (h : invocation.IsWritable) (env : Environment) (fs : FileSystem) :
    ofTokens env fs invocation.tokens =
      match invocation.overlong? with
      | none => .ok invocation
      | some digits => .error (.numeral (.tooLong digits)) := by
  obtain ⟨name, hname, hlower⟩ := h.command
  have hquote (text : Text) : Word.expand env fs (Word.quote text) = .ok [text] :=
    Word.expand_quote env fs text
  let Expands (word text : Text) : Prop := Word.expand env fs word = .ok [text]
  have hoptions : List.Forall₂ Expands
      (invocation.options.entries.map fun pair => Word.quote (Options.written pair))
      (invocation.options.entries.map Options.written) :=
    List.forall₂_map_left_iff.2 (List.forall₂_map_right_iff.2
      (List.forall₂_same.2 fun pair _ => hquote (Options.written pair)))
  have hargs : List.Forall₂ Expands (invocation.args.map Word.quote) invocation.args :=
    List.forall₂_map_left_iff.2 (List.forall₂_same.2 fun arg _ => hquote arg)
  have hcommand : Expands (Word.quote invocation.commandName) name := by
    rw [commandName, hname]
    exact hquote name
  have hdashes : Expands ['-', '-'] ['-', '-'] := expand_dashes env fs
  have hwords : List.Forall₂ Expands invocation.words
      (name :: invocation.options.entries.map Options.written ++
        ['-', '-'] :: invocation.args) :=
    List.rel_append (List.Forall₂.cons hcommand hoptions) (List.Forall₂.cons hdashes hargs)
  have hread : Options.read (invocation.options.entries.map Options.written ++
      ['-', '-'] :: invocation.args) = .ok (invocation.options, invocation.args) := by
    rw [Options.read, Options.readFrom_written h.options, Options.setAll_entries]
  have hgathered : Gathered.ofTokens (Word.expand env fs) invocation.tokens = _ :=
    Gathered.ofTokens_words hwords _
  rw [Gathered.ofTokens_redirects hquote h.streams] at hgathered
  rw [ofTokens, hgathered, overlong?]
  cases invocation.redirects.entries.findSome? Redirect.overlong? with
  | some digits => rfl
  | none =>
    simp only [Except.map, Gathered.before, ofGathered, List.cons_append, List.append_nil,
      List.nil_append, hread, hlower, OrderedMap.ofList_entries]
    rw [← hname]

/-- A written command is read back as itself, in every environment and every file system, unless the
number of a stream is too long to be read, which is so from the power of ten on that has one digit
more than are read. -/
theorem parseLine_written {gap : Text} (hgap : ∀ c ∈ gap, Text.isBlank c = true)
    (h : invocation.IsWritable) (env : Environment) (fs : FileSystem) :
    parseLine env fs (invocation.written gap) =
        (match invocation.overlong? with
        | none => .ok [invocation]
        | some digits => .error (.numeral (.tooLong digits))) ∧
      (invocation.overlong? = none ↔
        ∀ pair ∈ invocation.redirects.entries, pair.1 < 10 ^ Text.maxDigits) := by
  refine ⟨?_, overlong?_eq_none_iff h⟩
  rw [parseLine, split_written hgap h]
  cases hoverlong : invocation.overlong? <;> simp [ofTokens_tokens h env fs, hoverlong]

/-- A command whose name, options, arguments and targets are full of characters with a meaning. -/
def awkward : Invocation where
  command := some "~é"
  options := ⟨[(['-'], some "=*"), (['o'], none)], by decide⟩
  args := [[], "--", "$a '\x1b*"]
  redirects := ⟨[(12, ⟨.append, "a b"⟩), (0, ⟨.write, []⟩)], by decide⟩

private theorem isWritable_awkward : awkward.IsWritable where
  command := ⟨"~é", rfl, by decide +kernel⟩
  options := by
    intro pair hpair
    simp only [awkward, List.mem_cons, List.not_mem_nil, or_false] at hpair
    rcases hpair with rfl | rfl
    · exact ⟨⟨'-', [], rfl, by decide⟩, by decide, by decide⟩
    · exact ⟨⟨'o', [], rfl, by decide⟩, by decide, by decide⟩
  streams := by decide

theorem parseLine_written_awkward :
    (∀ c ∈ [' '], Text.isBlank c = true) ∧ awkward.IsWritable ∧
      parseLine .empty .empty (awkward.written [' ']) = .ok [awkward] := by
  have hspace : ∀ c ∈ [' '], Text.isBlank c = true := List.forall_mem_singleton.2 rfl
  have hparse := (parseLine_written hspace isWritable_awkward .empty .empty).1
  have hshort : awkward.overlong? = none := by decide +kernel
  rw [hshort] at hparse
  exact ⟨hspace, isWritable_awkward, hparse⟩

/-- A command that redirects a stream whose number is too long to be read. -/
def farStream : Invocation where
  command := some "run"
  options := .empty
  args := []
  redirects := ⟨[(10 ^ Text.maxDigits, ⟨.write, ['f']⟩)], by simp [Assoc.keys]⟩

/-- Such a command can be written, and what is written is not read back. -/
theorem parseLine_written_farStream :
    farStream.IsWritable ∧ ∃ digits,
      parseLine .empty .empty (farStream.written []) = .error (.numeral (.tooLong digits)) := by
  have hnumber : (0 : Int) ≤ 10 ^ Text.maxDigits := Int.pow_nonneg (by decide)
  have hwritable : farStream.IsWritable :=
    ⟨⟨"run", rfl, by decide +kernel⟩, nofun, List.forall_mem_singleton.2 hnumber⟩
  refine ⟨hwritable, ?_⟩
  rw [parseLine, split_written (by simp) hwritable]
  cases hoverlong : farStream.overlong? with
  | some digits => exact ⟨digits, by simp [ofTokens_tokens hwritable, hoverlong]⟩
  | none =>
    have hbound := (overlong?_eq_none_iff hwritable).1 hoverlong _ (List.mem_singleton_self _)
    exact absurd hbound (Int.lt_irrefl _)

end Invocation

end MemShell
