import MemShell.Json.Reader
import Mathlib.Data.List.TakeDrop
import Mathlib.Data.List.TakeWhile

/-!
# Numbers that are not read

Whatever is read from a text, the rest is an end of the text. So a whole number that is not read is
a run of digits of the text, with more of them than are read: a text without such a run is read or
is no JSON.
-/

namespace MemShell

/-- Whether a text has a run of digits that is too long to be read. -/
def Text.HasLongRun (text : Text) : Prop :=
  ∃ digits : Text, digits <:+: text ∧ (∀ c ∈ digits, c.isDigit = true) ∧
    Text.maxDigits < digits.length

/-- A run in an end of a text is a run in the text. -/
theorem Text.HasLongRun.of_suffix {text inner : Text} (h : Text.HasLongRun inner)
    (hinner : inner <:+ text) : Text.HasLongRun text :=
  have ⟨digits, hdigits, hrun⟩ := h
  ⟨digits, hdigits.trans hinner.isInfix, hrun⟩

namespace Json

/-- What holds of anything that is read from a text: the rest is an end of the text, and a number
that is not read is a run of digits of the text. -/
structure ReadFrom {α : Type} (text : Text) (reading : Except ReadError (α × Text)) : Prop where
  /-- The rest is an end of the text. -/
  rest : ∀ found after, reading = .ok (found, after) → after <:+ text
  /-- A number that is not read is a run of digits of the text that is too long. -/
  numeral : ∀ error, reading = .error (.numeral error) → Text.HasLongRun text

namespace ReadFrom

variable {α β : Type} {text inner : Text} {reading : Except ReadError (α × Text)}

/-- An end of the text is left over. -/
theorem ok {found : α} {after : Text} (h : after <:+ text) :
    ReadFrom text (.ok (found, after)) where
  rest := by
    rintro _ _ ⟨⟩
    exact h
  numeral := nofun

/-- The text is no JSON. -/
theorem malformed : ReadFrom text (.error .malformed : Except ReadError (α × Text)) :=
  ⟨nofun, nofun⟩

/-- What is read from an end of a text is read from the text. -/
theorem of_suffix (h : ReadFrom inner reading) (hinner : inner <:+ text) :
    ReadFrom text reading where
  rest found after hread := (h.rest found after hread).trans hinner
  numeral error hread := (h.numeral error hread).of_suffix hinner

/-- It may be turned into something else. -/
theorem map (h : ReadFrom text reading) (f : α → β) :
    ReadFrom text (reading.map fun (found, after) => (f found, after)) where
  rest found after hread := by
    cases reading with
    | error error => cases hread
    | ok pair =>
      cases hread
      exact h.rest pair.1 pair.2 rfl
  numeral error hread := by
    cases reading with
    | error other =>
      cases hread
      exact h.numeral error rfl
    | ok pair => cases hread

/-- An error stays when it is of something else. -/
theorem error {failure : ReadError} (h : ReadFrom text (.error failure : Except _ (α × Text))) :
    ReadFrom text (.error failure : Except ReadError (β × Text)) where
  rest := nofun
  numeral := by
    rintro error ⟨⟩
    exact h.numeral error rfl

end ReadFrom

/-! ## Leaves -/

/-- Blanks stand before the end of a text. -/
theorem skipSpace_suffix (text : Text) : skipSpace text <:+ text := List.dropWhile_suffix _

/-- Digits are taken from the front of a text. -/
theorem takeDigits_append (text : Text) : (takeDigits text).1 ++ (takeDigits text).2 = text := by
  rw [takeDigits, List.span_eq_takeWhile_dropWhile]
  exact List.takeWhile_append_dropWhile

/-- What follows the digits is an end of the text. -/
theorem takeDigits_suffix (text : Text) : (takeDigits text).2 <:+ text :=
  ⟨_, takeDigits_append text⟩

/-- They stand in the text. -/
theorem takeDigits_within (text : Text) : (takeDigits text).1 <:+: text :=
  List.IsPrefix.isInfix ⟨_, takeDigits_append text⟩

/-- They are digits. -/
theorem isDigit_of_mem_takeDigits {text : Text} {c : Char} (h : c ∈ (takeDigits text).1) :
    c.isDigit = true := by
  rw [takeDigits, List.span_eq_takeWhile_dropWhile] at h
  exact List.mem_takeWhile_imp h

/-- A character in front of what is read changes nothing about the rest. -/
theorem suffix_of_withChar {inner : Text} {c : Char} {reading : Option (Text × Text)}
    {pair : Text × Text} (h : reading.map (fun (text, after) => (c :: text, after)) = some pair)
    (ih : ∀ {pair}, reading = some pair → pair.2 <:+ inner) : pair.2 <:+ inner := by
  obtain ⟨⟨text, after⟩, hread, hpair⟩ := Option.map_eq_some_iff.1 h
  have hafter : after <:+ inner := ih hread
  cases hpair
  exact hafter

/-- What follows a string is an end of the text. -/
theorem stringBody_suffix {text : Text} {pair : Text × Text} (h : stringBody text = some pair) :
    pair.2 <:+ text := by
  fun_induction stringBody text generalizing pair
  case case2 =>
    cases h
    exact List.suffix_cons _ _
  case case3 ih =>
    exact (suffix_of_withChar h ih).trans ⟨[_, _, _, _, _, _, _, _, _, _, _, _], rfl⟩
  case case4 ih => exact (suffix_of_withChar h ih).trans ⟨[_, _, _, _, _, _], rfl⟩
  case case5 ih => exact (suffix_of_withChar h ih).trans ⟨[_, _, _, _, _, _], rfl⟩
  case case7 ih => exact (suffix_of_withChar h ih).trans ⟨[_, _, _, _, _, _], rfl⟩
  case case9 ih => exact (suffix_of_withChar h ih).trans ⟨[_, _], rfl⟩
  case case12 ih => exact (suffix_of_withChar h ih).trans (List.suffix_cons _ _)
  all_goals cases h

/-- What follows a fraction is an end of the text. -/
theorem fraction_suffix {text digits after : Text} (h : fraction? text = some (digits, after)) :
    after <:+ text := by
  unfold fraction? at h
  dsimp only at h
  split at h
  · split at h
    · cases h
    · cases h
      exact (takeDigits_suffix _).trans (List.suffix_cons _ _)
  · cases h

/-- What follows a power of ten is an end of the text. -/
theorem exponent_suffix {text : Text} {pair : Int × Text} (h : exponent? text = some pair) :
    pair.2 <:+ text := by
  have hunsigned {text : Text} {pair : Nat × Text} (h : exponent?.unsigned text = some pair) :
      pair.2 <:+ text := by
    unfold exponent?.unsigned at h
    dsimp only at h
    split at h
    · cases h
    · cases h
      exact takeDigits_suffix _
  have hsigned {text : Text} (h : exponent?.signed text = some pair) : pair.2 <:+ text := by
    unfold exponent?.signed at h
    split at h
    all_goals
      obtain ⟨read, hread, rfl⟩ := Option.map_eq_some_iff.1 h
      have hsuffix := hunsigned hread
    · exact hsuffix.trans (List.suffix_cons _ _)
    · exact hsuffix.trans (List.suffix_cons _ _)
    · exact hsuffix
  unfold exponent? at h
  split at h
  · exact (hsigned h).trans (List.suffix_cons _ _)
  · exact (hsigned h).trans (List.suffix_cons _ _)
  · cases h

/-- The digits at the start of a number are digits of the text, and the rest is an end of it. -/
theorem wholePart_spec (text : Text) :
    (wholePart text).1 <:+: text ∧ (wholePart text).2 <:+ text ∧
      ∀ c ∈ (wholePart text).1, c.isDigit = true := by
  unfold wholePart
  split
  · exact ⟨⟨[], _, rfl⟩, List.suffix_cons _ _, by simp⟩
  · exact ⟨takeDigits_within _, takeDigits_suffix _, fun _ => isDigit_of_mem_takeDigits⟩

/-- A number is read from its text. -/
theorem readFrom_unsignedNumber (negative : Bool) (text : Text) :
    ReadFrom text (unsignedNumber negative text) := by
  obtain ⟨hwithin, hrest, hdigits⟩ := wholePart_spec text
  have hfraction : ((fraction? (wholePart text).2).getD ([], (wholePart text).2)).2 <:+ text := by
    cases h : fraction? (wholePart text).2 with
    | none => exact hrest
    | some pair => exact (fraction_suffix h).trans hrest
  unfold unsignedNumber
  dsimp only
  split
  · exact .malformed
  · next hwhole =>
    split
    · next hexponent => exact .ok ((exponent_suffix hexponent).trans hfraction)
    · split
      · have hdecimal : Text.isDecimal (wholePart text).1 = true := by
          simpa [Text.isDecimal, hwhole] using hdigits
        cases hread : Text.readNat (wholePart text).1 with
        | ok number => exact .ok hrest
        | error error =>
          refine ⟨fun _ _ h => (by cases h), ?_⟩
          rintro _ ⟨⟩
          exact ⟨_, hwithin, hdigits, (Text.readNat_eq_error hread hdecimal).1⟩
      · exact .ok hfraction

/-- So is a literal name or a number. -/
theorem readFrom_scalar (text : Text) : ReadFrom text (scalar text) := by
  unfold scalar
  split
  · exact .ok ⟨"null".toList, rfl⟩
  · exact .ok ⟨"true".toList, rfl⟩
  · exact .ok ⟨"false".toList, rfl⟩
  · exact .ok ⟨"NaN".toList, rfl⟩
  · exact .ok ⟨"Infinity".toList, rfl⟩
  · exact .ok ⟨"-Infinity".toList, rfl⟩
  · exact (readFrom_unsignedNumber true _).of_suffix (List.suffix_cons _ _)
  · exact readFrom_unsignedNumber false _

/-- Everything between quotes is read from its text. -/
theorem readFrom_stringBody (text : Text) : ReadFrom text (orMalformed (stringBody text)) := by
  cases h : stringBody text with
  | none => exact .malformed
  | some pair => exact .ok (stringBody_suffix h)

/-! ## Values -/

/-- What stands behind a character behind blanks is an end of the text. -/
theorem suffix_of_skipSpace {text rest after : Text} {c : Char} (h : skipSpace rest = c :: after)
    (hrest : rest <:+ text) : after <:+ text :=
  (List.suffix_cons c after).trans (h ▸ (skipSpace_suffix rest).trans hrest)

section Step

variable {fuel : Nat}

/-- A value is read from its text if items and fields are. -/
theorem readFrom_value_succ (hitems : ∀ text, ReadFrom text (items fuel text))
    (hmembers : ∀ text, ReadFrom text (members fuel text)) (text : Text) :
    ReadFrom text (value (fuel + 1) text) := by
  unfold value
  dsimp only
  split
  · exact ((readFrom_stringBody _).map _).of_suffix (List.suffix_cons _ _)
  · next rest =>
    have hrest : rest <:+ '[' :: rest := List.suffix_cons _ _
    split
    · next hclosed => exact .ok (suffix_of_skipSpace hclosed hrest)
    · exact ((hitems _).map _).of_suffix ((skipSpace_suffix rest).trans hrest)
  · next rest =>
    have hrest : rest <:+ '\x7b' :: rest := List.suffix_cons _ _
    split
    · next hclosed => exact .ok (suffix_of_skipSpace hclosed hrest)
    · exact ((hmembers _).map (object <| Assoc.ofList ·)).of_suffix
        ((skipSpace_suffix rest).trans hrest)
  · exact readFrom_scalar text

variable (hvalue : ∀ text, ReadFrom text (value fuel text))

include hvalue

/-- Items are read from their text if a value and the items behind it are. -/
theorem readFrom_items_succ (hitems : ∀ text, ReadFrom text (items fuel text)) (text : Text) :
    ReadFrom text (items (fuel + 1) text) := by
  unfold items
  dsimp only
  have hitem := hvalue text
  split
  · next hread => exact (hread ▸ hitem).error
  · next item rest hread =>
    have hrest : rest <:+ text := hitem.rest _ _ hread
    split
    · next hclosed => exact .ok (suffix_of_skipSpace hclosed hrest)
    · next next hcomma =>
      have hnext := (skipSpace_suffix next).trans (suffix_of_skipSpace hcomma hrest)
      exact ((hitems _).map _).of_suffix hnext
    · exact .malformed

/-- Fields are read from their text if a value and the fields behind it are. -/
theorem readFrom_members_succ (hmembers : ∀ text, ReadFrom text (members fuel text))
    (text : Text) : ReadFrom text (members (fuel + 1) text) := by
  unfold members
  dsimp only
  split
  · next quoted =>
    split
    · exact .malformed
    · next name rest hname =>
      have hrest := (stringBody_suffix hname).trans (List.suffix_cons '"' quoted)
      split
      · next body hcolon =>
        have hbody := (skipSpace_suffix body).trans (suffix_of_skipSpace hcolon hrest)
        have hitem := (hvalue (skipSpace body)).of_suffix hbody
        split
        · next hread => exact (hread ▸ hitem).error
        · next item rest hread =>
          have hrest := hitem.rest _ _ hread
          split
          · next hclosed => exact .ok (suffix_of_skipSpace hclosed hrest)
          · next next hcomma =>
            have hnext := (skipSpace_suffix next).trans (suffix_of_skipSpace hcomma hrest)
            exact ((hmembers _).map _).of_suffix hnext
          · exact .malformed
      · exact .malformed
  · exact .malformed

end Step

/-- Values, items and fields are read from their texts. -/
theorem readFrom_value (fuel : Nat) :
    (∀ text, ReadFrom text (value fuel text)) ∧ (∀ text, ReadFrom text (items fuel text)) ∧
      ∀ text, ReadFrom text (members fuel text) := by
  -- all at once, because each of them calls the others
  induction fuel with
  | zero => exact ⟨fun _ => .malformed, fun _ => .malformed, fun _ => .malformed⟩
  | succ fuel ih =>
    obtain ⟨hvalue, hitems, hmembers⟩ := ih
    exact ⟨readFrom_value_succ hitems hmembers, readFrom_items_succ hvalue hitems,
      readFrom_members_succ hvalue hmembers⟩

/-- A text without a run of digits that is too long is read or is no JSON. -/
theorem hasLongRun_of_parse {text : Text} {error : NumeralError}
    (h : parse text = .error (.numeral error)) : Text.HasLongRun text := by
  rw [parse] at h
  split at h
  · split at h <;> cases h
  · next failure hread =>
    cases h
    have hfrom := (readFrom_value (text.length + 1)).1 (skipSpace text)
    exact (hfrom.numeral error hread).of_suffix (skipSpace_suffix text)

end Json

end MemShell
