import Mathlib.Data.List.Forall2
import MemShell.Proofs.Token.Splitting

/-!
# Lines put together

A line that can be split leaves no trace on what is written behind it and a boundary. Main statement:
the tokens of both parts stand one after the other, and so do their commands; where the part behind
cannot be split, it fails as it does alone, at a position that counts what stands before it.
-/

namespace MemShell

namespace LexError

@[simp] theorem message_shift (by_ : Nat) (error : LexError) :
    (error.shift by_).message = error.message := by
  cases error <;> rfl

@[simp] theorem position_shift (by_ : Nat) (error : LexError) :
    (error.shift by_).position = error.position + by_ := by
  cases error <;> rfl

end LexError

namespace Token

private theorem map_append_map (front back : List Token)
    (part : Except LexError (List Token)) :
    (part.map (back ++ ·)).map (front ++ ·) = part.map (front ++ back ++ ·) := by
  cases part with
  | error error => rfl
  | ok tokens => exact congrArg Except.ok (List.append_assoc front back tokens).symm

private theorem add_length_cons (position : Nat) (c : Char) (line : Text) :
    position + (c :: line).length + 1 = position + 1 + line.length + 1 := by
  rw [List.length_cons]
  omega

/-- What has been split leaves no trace on what follows it and a boundary. -/
theorem Splits.scan_append_boundary {groups : List Group} {current line : Text}
    {tokens : List Token} (h : Splits groups current line tokens) {c : Char} (hc : IsBoundary c)
    (position : Nat) (rest : Text) :
    scan position groups current (line ++ c :: rest) =
      (scan (position + line.length + 1) [] [] rest).map (tokens ++ ofBoundary c ++ ·) := by
  induction h generalizing position with
  | done current => exact scan_boundary position current rest hc
  | pair d h ih =>
    rw [List.cons_append, List.cons_append, scan_pair, ih, add_length_cons, add_length_cons]
  | keep hd hstep h ih => rw [List.cons_append, scan_keep _ _ _ _ hd hstep, ih, add_length_cons]
  | boundary hd current h ih =>
    rw [List.cons_append, scan_boundary _ _ _ hd, ih, map_append_map, add_length_cons]
    simp only [List.append_assoc]
  | append current h ih =>
    rw [List.cons_append, List.cons_append, Token.scan_append, ih, map_append_map, add_length_cons,
      add_length_cons]
    simp only [List.append_assoc]
  | @write current line hline tokens h ih =>
    have hhead : (line ++ c :: rest).head? ≠ some '>' := by
      cases line with
      | nil => simpa using hc.ne (by decide) (by decide)
      | cons d line => exact hline
    rw [List.cons_append, scan_write _ _ hhead, ih, map_append_map, add_length_cons]
    simp only [List.append_assoc]
  | plain hd hstep hn hr h ih =>
    rw [List.cons_append, scan_plain _ _ _ hd hstep hn hr, ih, add_length_cons]

private theorem map_shift {part shifted : Except LexError (List Token)} {by_ : Nat}
    (f : List Token → List Token) (h : shifted = part.mapError (LexError.shift by_)) :
    shifted.map f = (part.map f).mapError (LexError.shift by_) := by
  subst h
  cases part <;> rfl

/-- A later start moves the position of an error, and nothing else. -/
theorem scan_shift (by_ position : Nat) (groups : List Group) (current line : Text) :
    scan (position + by_) groups current line =
      (scan position groups current line).mapError (LexError.shift by_) := by
  fun_induction scan position groups current line with
  | case1 | case2 => rfl
  | case3 position current quote rest hq => rw [scan, Except.mapError, LexError.shift]; exact hq
  | case4 => simp [scan, Except.mapError, LexError.shift]
  | case5 position groups current d after ih => rw [scan_pair, Nat.add_right_comm, ih]
  | case6 position groups current d line hd error hstep =>
    rw [scan.eq_def]
    simp only [hd, hstep, ite_false, Except.mapError]
    rcases refused_of_groupStep hstep with rfl | rfl <;> rfl
  | case7 position groups current d line hd after hstep ih =>
    rw [scan_keep _ _ _ _ hd hstep, Nat.add_right_comm, ih]
  | case8 position groups current d line hd hstep hblank ih =>
    obtain rfl := eq_nil_of_groupStep hstep
    rw [scan_boundary _ _ _ (.inl hblank), Nat.add_right_comm, ofBoundary_of_isBlank hblank,
      List.append_nil]
    exact map_shift _ ih
  | case9 position groups current line hd hstep hblank ih =>
    obtain rfl := eq_nil_of_groupStep hstep
    rw [scan_boundary _ _ _ (.inr rfl), Nat.add_right_comm, ih]
    simpa [ofBoundary] using map_shift _ rfl
  | case10 position groups current hd hstep hblank hs =>
    obtain rfl := eq_nil_of_groupStep hstep
    simp [scan, hstep, hblank, Except.mapError]
  | case11 position groups current after hd hstep hblank hs ih =>
    obtain rfl := eq_nil_of_groupStep hstep
    rw [Token.scan_append, Nat.add_right_comm]
    exact map_shift _ ih
  | case12 position groups current d after hgt hd hstep hblank hs ih =>
    obtain rfl := eq_nil_of_groupStep hstep
    rw [scan_write _ _ (by simpa using hgt), Nat.add_right_comm]
    exact map_shift _ ih
  | case13 position groups current d line hd hstep hblank hs hgt ih =>
    obtain rfl := eq_nil_of_groupStep hstep
    rw [scan_plain _ _ _ hd hstep (not_or.2 ⟨hblank, hs⟩) hgt, Nat.add_right_comm, ih]

/-- What a line is split into does not depend on where it starts. -/
theorem scan_eq_ok {line : Text} {tokens : List Token} (h : tokenize line = .ok tokens)
    (position : Nat) : scan position [] [] line = .ok tokens := by
  rw [← Nat.zero_add position, scan_shift, show scan 0 [] [] line = .ok tokens from h]
  rfl

/-- Lines that can be split can be split with blanks between them. -/
theorem tokenize_join {pieces : List Text} {tokens : List (List Token)}
    (h : List.Forall₂ (fun piece found => tokenize piece = .ok found) pieces tokens) :
    tokenize (Text.join [' '] pieces) = .ok tokens.flatten := by
  induction h with
  | nil => rfl
  | @cons piece found pieces tokens hpiece hpieces ih =>
    cases hpieces with
    | nil => simpa [Text.join] using hpiece
    | cons hnext hrest =>
      rw [Text.join, List.append_assoc, List.singleton_append, tokenize,
        (splits_iff.2 hpiece).scan_append_boundary (.inl (by decide)), scan_eq_ok ih]
      simp [Except.map, ofBoundary]

/-! ## Commands -/

/-- A token that is no separator goes to the first piece. -/
theorem pieces_cons {token : Token} (h : token ≠ .separator) (rest : List Token) :
    ∃ piece others, pieces rest = piece :: others ∧
      pieces (token :: rest) = (token :: piece) :: others := by
  induction rest generalizing token with
  | nil => exact ⟨[], [], rfl, by rw [pieces.eq_3 _ _ h, pieces]⟩
  | cons next rest ih =>
    by_cases hnext : next = .separator
    · refine ⟨[], pieces rest, by rw [hnext, pieces], ?_⟩
      rw [pieces.eq_3 _ _ h, hnext, pieces]
    · obtain ⟨piece, others, -, hpieces⟩ := ih hnext
      exact ⟨next :: piece, others, hpieces, by rw [pieces.eq_3 _ _ h, hpieces]⟩

/-- A separator ends the pieces before it. -/
theorem pieces_append_separator (front back : List Token) :
    pieces (front ++ .separator :: back) = pieces front ++ pieces back := by
  induction front with
  | nil => rfl
  | cons token front ih =>
    by_cases htoken : token = .separator
    · rw [htoken, List.cons_append, pieces, ih, pieces, List.cons_append]
    · obtain ⟨piece, others, hfront, hpieces⟩ := pieces_cons htoken front
      rw [List.cons_append, pieces.eq_3 _ _ htoken, ih, hfront, hpieces]
      rfl

/-- The commands of two lines with a separator between them are the commands of both. -/
theorem commands_append_separator (front back : List Token) :
    commands (front ++ .separator :: back) = commands front ++ commands back := by
  rw [commands, pieces_append_separator, List.filter_append, commands, commands]

/-- The commands of a line are those of its tokens. -/
theorem exists_of_split {line : Text} {found : List (List Token)} (h : split line = .ok found) :
    ∃ tokens, tokenize line = .ok tokens ∧ found = commands tokens := by
  rw [split] at h
  cases htokens : tokenize line with
  | error error =>
    rw [htokens] at h
    cases h
  | ok tokens =>
    rw [htokens] at h
    exact ⟨tokens, rfl, (Except.ok.inj h).symm⟩

theorem split_of_tokenize {line : Text} {tokens : List Token} (h : tokenize line = .ok tokens) :
    split line = .ok (commands tokens) := by
  rw [split, h]
  rfl

/-- No command of a line is empty. -/
theorem ne_nil_of_mem_split {line : Text} {found : List (List Token)} (h : split line = .ok found)
    {command : List Token} (hcommand : command ∈ found) : command ≠ [] := by
  obtain ⟨tokens, -, rfl⟩ := exists_of_split h
  have hkept := (List.mem_filter.1 hcommand).2
  simpa using hkept

/-! ## Two lines -/

/-- What stands behind a line that can be split and a boundary is read as it is read alone, at a
later position. -/
theorem tokenize_append_boundary {c : Char} (hc : IsBoundary c) {line : Text}
    {tokens : List Token} (h : tokenize line = .ok tokens) (rest : Text) :
    tokenize (line ++ c :: rest) =
      ((tokenize rest).mapError (LexError.shift (line.length + 1))).map
        (tokens ++ ofBoundary c ++ ·) := by
  rw [tokenize, (splits_iff.2 h).scan_append_boundary hc, Nat.add_assoc, scan_shift, tokenize]

/-- Two lines with a separator between them have the tokens of both. -/
theorem tokenize_append_separator {first second : Text} {front back : List Token}
    (hfirst : tokenize first = .ok front) (hsecond : tokenize second = .ok back) :
    tokenize (first ++ ';' :: second) = .ok (front ++ .separator :: back) := by
  rw [tokenize_append_boundary (.inr rfl) hfirst, hsecond]
  simp [Except.mapError, Except.map, ofBoundary]

/-- Two lines with a blank between them have the tokens of both. -/
theorem tokenize_append_blank {c : Char} (hc : Text.isBlank c = true) {first second : Text}
    {front back : List Token} (hfirst : tokenize first = .ok front)
    (hsecond : tokenize second = .ok back) :
    tokenize (first ++ c :: second) = .ok (front ++ back) := by
  rw [tokenize_append_boundary (.inl hc) hfirst, hsecond, ofBoundary_of_isBlank hc]
  simp [Except.mapError, Except.map]

/-- Behind a line that can be split and a boundary a line fails as it does alone. -/
theorem tokenize_append_error {c : Char} (hc : IsBoundary c) {first second : Text}
    {front : List Token} (hfirst : tokenize first = .ok front) {error : LexError}
    (hsecond : tokenize second = .error error) :
    tokenize (first ++ c :: second) = .error (error.shift (first.length + 1)) := by
  rw [tokenize_append_boundary hc hfirst, hsecond]
  rfl

/-- Two lines with a separator between them have the commands of both. -/
theorem split_append_separator {first second : Text} {front back : List (List Token)}
    (hfirst : split first = .ok front) (hsecond : split second = .ok back) :
    split (first ++ ';' :: second) = .ok (front ++ back) := by
  obtain ⟨tokens, htokens, rfl⟩ := exists_of_split hfirst
  obtain ⟨found, hfound, rfl⟩ := exists_of_split hsecond
  rw [split_of_tokenize (tokenize_append_separator htokens hfound), commands_append_separator]

/-- A line that can be split leaves no trace on the line behind it. With a blank between them two
such lines have the tokens of the one and then those of the other, and with a semicolon there is a
separator in between; so the commands of the second follow those of the first, and none is empty. If
the second line is refused, both together are refused for the same reason at the same character. -/
theorem tokenize_composes {line : Text} {tokens : List Token} (h : tokenize line = .ok tokens)
    (rest : Text) :
    (∀ found, tokenize rest = .ok found →
      tokenize (line ++ ' ' :: rest) = .ok (tokens ++ found) ∧
        tokenize (line ++ ';' :: rest) = .ok (tokens ++ .separator :: found)) ∧
      (∀ error, tokenize rest = .error error →
        tokenize (line ++ ' ' :: rest) = .error (error.shift (line.length + 1)) ∧
          tokenize (line ++ ';' :: rest) = .error (error.shift (line.length + 1)) ∧
          (error.shift (line.length + 1)).message = error.message ∧
          (error.shift (line.length + 1)).position = error.position + (line.length + 1)) ∧
      ∀ back, split rest = .ok back →
        ∃ front, split line = .ok front ∧ split (line ++ ';' :: rest) = .ok (front ++ back) ∧
          ∀ command ∈ front ++ back, command ≠ [] := by
  have hspace : Text.isBlank ' ' = true := by decide
  have hline : split line = .ok (commands tokens) := split_of_tokenize h
  refine ⟨fun found hrest => ⟨?_, ?_⟩, fun error hrest => ⟨?_, ?_, ?_, ?_⟩, fun back hrest => ?_⟩
  · exact tokenize_append_blank hspace h hrest
  · exact tokenize_append_separator h hrest
  · exact tokenize_append_error (.inl hspace) h hrest
  · exact tokenize_append_error (.inr rfl) h hrest
  · exact LexError.message_shift _ _
  · exact LexError.position_shift _ _
  · have hboth := split_append_separator hline hrest
    exact ⟨commands tokens, hline, hboth, fun command => ne_nil_of_mem_split hboth⟩

/-- A line with a redirect that takes its digit, and a quoted semicolon. -/
def redirected : Text := ['2', '>', 'a', '\\', ';', '"', ';', '"']

theorem tokenize_composes_redirected :
    tokenize redirected = .ok [.redirect ['2'] .write, .word ['a', '\\', ';', '"', ';', '"']] ∧
      split (redirected ++ ';' :: ['7', ';', ' ', ';', '>', 'b']) =
        .ok [[.redirect ['2'] .write, .word ['a', '\\', ';', '"', ';', '"']], [.word ['7']],
          [.redirect [] .write, .word ['b']]] ∧
      tokenize (redirected ++ ' ' :: ['7', '\x7d']) = .error (.unopenedBrace 10) := by
  have hline : tokenize redirected =
      .ok [.redirect ['2'] .write, .word ['a', '\\', ';', '"', ';', '"']] := rfl
  obtain ⟨-, -, hcommands⟩ := tokenize_composes hline ['7', ';', ' ', ';', '>', 'b']
  obtain ⟨-, hrefused, -⟩ := tokenize_composes hline ['7', '\x7d']
  obtain ⟨front, hfront, hboth, -⟩ := hcommands _ rfl
  cases hfront
  exact ⟨hline, hboth, (hrefused _ rfl).1⟩

end Token

end MemShell
