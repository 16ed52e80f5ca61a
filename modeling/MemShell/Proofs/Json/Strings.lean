import MemShell.Json.Reader
import MemShell.Json.Writer

/-!
# Strings are read back

Every character is written in a form that the reader takes for that character and nothing more:
itself, a letter behind a backslash, a code unit, or a pair of code units. So a written string is
read back as itself, whether or not characters outside ASCII are escaped.
-/

namespace MemShell.Json

/-! ## Code units -/

/-- The last hexadecimal digit of a number stands behind the digits of the rest. -/
theorem hex_succ (width n : Nat) :
    Text.hex (width + 2) n = Text.hex (width + 1) (n / 16) ++ [Nat.digitChar (n % 16)] := by
  rw [Text.hex, Text.hex, Text.padLeft, Text.padLeft]
  by_cases hn : n < 16
  · rw [Nat.toDigits_of_lt_base hn, Nat.div_eq_of_lt hn, Nat.mod_eq_of_lt hn,
      Nat.toDigits_of_lt_base (by decide : 0 < 16)]
    have hzero : Nat.digitChar 0 = '0' := rfl
    simp [hzero, List.replicate_succ']
  · rw [Nat.toDigits_of_base_le (by decide) (Nat.le_of_not_lt hn)]
    simp

/-- A hexadecimal digit is read back. -/
theorem hexDigit?_digitChar : ∀ digit < 16, hexDigit? (Nat.digitChar digit) = some digit := by
  decide

/-- A code unit is written as four characters that denote it. -/
theorem exists_hex_eq {unit : Nat} (h : unit < 0x10000) :
    ∃ a b c d, Text.hex 4 unit = [a, b, c, d] ∧ codeUnit? a b c d = some unit := by
  have hfirst : Text.hex 1 (unit / 16 / 16 / 16) = [Nat.digitChar (unit / 16 / 16 / 16)] := by
    rw [Text.hex, Nat.toDigits_of_lt_base (by omega)]
    rfl
  have hhex : Text.hex 4 unit = [Nat.digitChar (unit / 16 / 16 / 16),
      Nat.digitChar (unit / 16 / 16 % 16), Nat.digitChar (unit / 16 % 16),
      Nat.digitChar (unit % 16)] := by
    rw [hex_succ, hex_succ, hex_succ, hfirst]
    rfl
  refine ⟨_, _, _, _, hhex, ?_⟩
  rw [codeUnit?, hexDigit?_digitChar _ (by omega), hexDigit?_digitChar _ (by omega),
    hexDigit?_digitChar _ (by omega), hexDigit?_digitChar _ (by omega)]
  simp only [Option.some.injEq]
  omega

/-- A character lies outside the halves of pairs. -/
theorem toNat_bounds (c : Char) : c.toNat < 0xd800 ∨ 0xdfff < c.toNat ∧ c.toNat < 0x110000 :=
  c.valid

/-- A character is no half of a pair. -/
theorem not_surrogate (c : Char) :
    isHighSurrogate c.toNat = false ∧ isLowSurrogate c.toNat = false := by
  have hbounds := toNat_bounds c
  simp only [isHighSurrogate, isLowSurrogate, Bool.and_eq_false_iff, decide_eq_false_iff_not]
  omega

/-! ## Characters -/

/-- What a reader of strings gives with a character in front of it. -/
def withChar (c : Char) (read : Option (Text × Text)) : Option (Text × Text) :=
  read.map fun (text, after) => (c :: text, after)

/-- A letter behind a backslash is read as the character that it stands for. -/
theorem stringBody_simpleEscape {letter c : Char} (h : simpleEscape? letter = some c)
    (rest : Text) : stringBody ('\\' :: letter :: rest) = withChar c (stringBody rest) := by
  have hletter : letter ≠ 'u' := by
    rintro rfl
    cases h
  rw [stringBody, h]
  · rfl
  · exact fun _ _ _ _ _ _ _ _ _ hu => absurd hu hletter
  · exact fun _ _ _ _ _ hu => absurd hu hletter

/-- A character that needs no escape is read as itself. -/
theorem stringBody_plain {c : Char} (hquote : c ≠ '"') (hslash : c ≠ '\\') (hspace : ¬c < ' ')
    (rest : Text) : stringBody (c :: rest) = withChar c (stringBody rest) := by
  rw [stringBody, if_neg (not_or.2 ⟨hspace, hslash⟩)]
  · rfl
  · exact hquote
  · exact fun _ _ _ _ _ _ _ _ _ hc => absurd hc hslash
  · exact fun _ _ _ _ _ hc => absurd hc hslash
  · exact fun _ _ hc => absurd hc hslash

/-- A code unit that is no half of a pair is read as its character, whatever follows. -/
theorem stringBody_escapeUnit {unit : Nat} (h : unit < 0x10000)
    (hhigh : isHighSurrogate unit = false) (rest : Text) :
    stringBody (escapeUnit unit ++ rest) = withChar (unitChar unit) (stringBody rest) := by
  obtain ⟨a, b, c, d, hhex, hunit⟩ := exists_hex_eq h
  rw [escapeUnit, hhex]
  change stringBody ('\\' :: 'u' :: a :: b :: c :: d :: rest) = _
  by_cases hpair : ∃ e f g h after, rest = '\\' :: 'u' :: e :: f :: g :: h :: after
  · obtain ⟨e, f, g, h, after, rfl⟩ := hpair
    rw [stringBody, hunit]
    cases codeUnit? e f g h with
    | none => rfl
    | some low =>
      dsimp only
      rw [hhigh, Bool.false_and, if_neg Bool.false_ne_true]
      rfl
  · rw [stringBody, hunit]
    · rfl
    · exact fun e f g h after hrest => hpair ⟨e, f, g, h, after, hrest⟩

/-- Two code units that make a pair are read as the character of the pair. -/
theorem stringBody_escapePair {high low : Nat} (hhigh : isHighSurrogate high = true)
    (hlow : isLowSurrogate low = true) (rest : Text) :
    stringBody (escapeUnit high ++ escapeUnit low ++ rest) =
      withChar (Char.ofNat (0x10000 + (high - 0xd800) * 0x400 + (low - 0xdc00)))
        (stringBody rest) := by
  have hbounds : high < 0x10000 ∧ low < 0x10000 := by
    simp only [isHighSurrogate, isLowSurrogate, Bool.and_eq_true, decide_eq_true_eq] at hhigh hlow
    omega
  obtain ⟨a, b, c, d, hhex, hunit⟩ := exists_hex_eq hbounds.1
  obtain ⟨e, f, g, h, hhex', hunit'⟩ := exists_hex_eq hbounds.2
  rw [escapeUnit, escapeUnit, hhex, hhex']
  change stringBody ('\\' :: 'u' :: a :: b :: c :: d :: '\\' :: 'u' :: e :: f :: g :: h :: rest) = _
  rw [stringBody, hunit, hunit']
  dsimp only
  rw [hhigh, hlow, Bool.and_self, if_pos rfl]
  rfl

/-- A character that needs a pair is read back from it. -/
theorem stringBody_beyond {c : Char} (h : 0x10000 ≤ c.toNat) (rest : Text) :
    stringBody (escapeUnit (0xd800 + (c.toNat - 0x10000) / 0x400) ++
        escapeUnit (0xdc00 + (c.toNat - 0x10000) % 0x400) ++ rest) =
      withChar c (stringBody rest) := by
  have hbounds := toNat_bounds c
  have hhigh : isHighSurrogate (0xd800 + (c.toNat - 0x10000) / 0x400) = true := by
    simp only [isHighSurrogate, Bool.and_eq_true, decide_eq_true_eq]
    omega
  have hlow : isLowSurrogate (0xdc00 + (c.toNat - 0x10000) % 0x400) = true := by
    simp only [isLowSurrogate, Bool.and_eq_true, decide_eq_true_eq]
    omega
  have hpair : 0x10000 + (0xd800 + (c.toNat - 0x10000) / 0x400 - 0xd800) * 0x400 +
      (0xdc00 + (c.toNat - 0x10000) % 0x400 - 0xdc00) = c.toNat := by omega
  rw [stringBody_escapePair hhigh hlow, hpair, Char.ofNat_toNat]

/-- A written character is read back, whatever follows. -/
theorem stringBody_escapeChar (asciiOnly : Bool) (c : Char) (rest : Text) :
    stringBody (escapeChar asciiOnly c ++ rest) = withChar c (stringBody rest) := by
  obtain ⟨hhigh, hlow⟩ := not_surrogate c
  have hunit : unitChar c.toNat = c := by
    rw [unitChar, hhigh, hlow, Bool.or_self, if_neg Bool.false_ne_true, Char.ofNat_toNat]
  rw [escapeChar]
  split
  · next h =>
    rcases h with rfl | rfl
    · exact stringBody_simpleEscape rfl rest
    · exact stringBody_simpleEscape rfl rest
  · next hplain =>
    rw [not_or] at hplain
    -- five control characters have a letter of their own
    iterate 5
      split
      · next h => subst h; exact stringBody_simpleEscape rfl rest
    split
    · next hcontrol =>
      have hc : c.toNat < 0x10000 := Nat.lt_trans (show c.toNat < 32 from hcontrol) (by decide)
      rw [stringBody_escapeUnit hc hhigh, hunit]
    next hcontrol =>
    split
    · exact stringBody_plain hplain.1 hplain.2 hcontrol rest
    split
    · next hc => rw [stringBody_escapeUnit hc hhigh, hunit]
    · next hc => exact stringBody_beyond (Nat.le_of_not_lt hc) rest

/-- A written string is read back up to its closing quote. -/
theorem stringBody_flatMap (asciiOnly : Bool) (text rest : Text) :
    stringBody (text.flatMap (escapeChar asciiOnly) ++ '"' :: rest) = some (text, rest) := by
  induction text with
  | nil => rw [List.flatMap_nil, List.nil_append, stringBody]
  | cons c text ih =>
    rw [List.flatMap_cons, List.append_assoc, stringBody_escapeChar, ih]
    rfl

end MemShell.Json
