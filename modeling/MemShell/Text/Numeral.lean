import MemShell.Text.Digit
import MemShell.Text.Quoted

/-!
# Numerals

A numeral is a run of ASCII digits, and there is a limit to how many of them are read. Zeros at the
front count.
-/

namespace MemShell

/-- Why a text is not read as a number. -/
inductive NumeralError
  /-- It is no run of digits. -/
  | malformed (text : Text)
  /-- It has more digits than are read. -/
  | tooLong (digits : Nat)
  deriving DecidableEq

/-- The message of a numeral error. -/
def NumeralError.message : NumeralError → Text
  | malformed text => "invalid literal for int() with base 10: " ++ Text.quoted text
  | tooLong digits =>
    "Exceeds the limit (4300 digits) for integer string conversion: value has " ++
      Text.ofNat digits ++ " digits; use sys.set_int_max_str_digits() to increase the limit"

namespace Text

/-- The most digits that are read as a number. -/
def maxDigits : Nat := 4300

/-- The number that a numeral denotes. -/
def readNat (text : Text) : Except NumeralError Nat :=
  if !isDecimal text then .error (.malformed text)
  else if maxDigits < text.length then .error (.tooLong text.length)
  else .ok (toNat text)

/-- The digits of a number are a numeral. -/
theorem isDecimal_ofNat (n : Nat) : isDecimal (ofNat n) = true := by
  have hdigits : ∀ c ∈ ofNat n, c.isDigit = true := fun c hc =>
    Nat.isDigit_of_mem_toDigits (by decide) (by decide) hc
  have hne : ofNat n ≠ [] := Nat.toDigits_ne_nil
  simpa [isDecimal, hne] using hdigits

/-- The digits of a number denote it. -/
theorem toNat_ofNat (n : Nat) : toNat (ofNat n) = n :=
  Nat.ofDigitChars_eq_foldl.symm.trans Nat.ofDigitChars_ten_toDigits

/-- A run of digits is not read only if it is too long. -/
theorem readNat_eq_error {text : Text} {error : NumeralError} (h : readNat text = .error error)
    (hdecimal : isDecimal text = true) :
    maxDigits < text.length ∧ error = .tooLong text.length := by
  rw [readNat, hdecimal] at h
  split at h
  · next hnot => exact absurd hnot (by decide)
  · split at h
    · next hlong =>
      cases h
      exact ⟨hlong, rfl⟩
    · cases h

/-- A number is read from a run of digits that is not too long, and from nothing else. -/
theorem readNat_eq_ok_iff {text : Text} {number : Nat} :
    readNat text = .ok number ↔
      isDecimal text = true ∧ text.length ≤ maxDigits ∧ number = toNat text := by
  rw [readNat]
  split
  · next hnot =>
    refine iff_of_false nofun fun h => ?_
    rw [h.1] at hnot
    exact absurd hnot (by decide)
  · next hdecimal =>
    split
    · next hlong => exact iff_of_false nofun fun h => Nat.not_le_of_lt hlong h.2.1
    · next hshort =>
      have hread : isDecimal text = true := by simpa using hdecimal
      rw [Except.ok.injEq]
      exact ⟨fun h => ⟨hread, Nat.le_of_not_lt hshort, h.symm⟩, fun h => h.2.2.symm⟩

/-- A digit that is repeated is a decimal numeral. -/
theorem isDecimal_replicate {c : Char} {n : Nat} (hc : c.isDigit = true) (hn : 0 < n) :
    isDecimal (List.replicate n c) = true := by
  simp [isDecimal, hc, Nat.ne_of_gt hn]

/-- The same digit too many times is not read. -/
theorem readNat_replicate {c : Char} {n : Nat} (hc : c.isDigit = true) (hn : maxDigits < n) :
    readNat (List.replicate n c) = .error (.tooLong n) := by
  rw [readNat, isDecimal_replicate hc (Nat.zero_lt_of_lt hn), List.length_replicate]
  exact if_pos hn

/-- A number is read from its digits unless there are too many of them. -/
theorem readNat_ofNat (n : Nat) :
    readNat (ofNat n) =
      if maxDigits < (ofNat n).length then .error (.tooLong (ofNat n).length) else .ok n := by
  rw [readNat, isDecimal_ofNat, toNat_ofNat]
  rfl

end Text

end MemShell
