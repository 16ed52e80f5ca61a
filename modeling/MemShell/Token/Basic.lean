import MemShell.Text.Numeral

/-!
# Tokens

A command line is made of words, separators between commands and redirect operators. A word keeps
its quotes, braces and backslashes.
-/

namespace MemShell

/-- How a redirect treats the text of its target. -/
inductive RedirectMode
  /-- What was there is dropped. -/
  | write
  /-- What was there stays in front. -/
  | append
  deriving DecidableEq

/-- The operator of a redirect. -/
def RedirectMode.operator : RedirectMode → Text
  | write => ['>']
  | append => ['>', '>']

/-- A token of a command line. -/
inductive Token
  /-- A word as it was written. -/
  | word (value : Text)
  /-- The end of a command. -/
  | separator
  /-- A redirect of the stream with the written number. -/
  | redirect (digits : Text) (mode : RedirectMode)
  deriving DecidableEq

/-- The text of a token. -/
def Token.text : Token → Text
  | word value => value
  | separator => [';']
  | redirect digits mode => digits ++ mode.operator

/-- The stream that the digits of a redirect denote, which is the output if there are none. -/
def streamNumber (digits : Text) : Except NumeralError Nat :=
  if digits.isEmpty then .ok 1 else Text.readNat digits

/-- The same digit too many times denotes no stream. -/
theorem streamNumber_replicate {c : Char} {n : Nat} (hc : c.isDigit = true)
    (hn : Text.maxDigits < n) : streamNumber (List.replicate n c) = .error (.tooLong n) := by
  have hpos : 0 < n := Nat.zero_lt_of_lt hn
  have hne : (List.replicate n c).isEmpty = false := by simp [Nat.ne_of_gt hpos]
  rw [streamNumber, hne]
  exact Text.readNat_replicate hc hn

/-- The digits of a number denote its stream unless there are too many of them. -/
theorem streamNumber_ofNat (n : Nat) :
    streamNumber (Text.ofNat n) =
      if Text.maxDigits < (Text.ofNat n).length then .error (.tooLong (Text.ofNat n).length)
      else .ok n := by
  have hne : (Text.ofNat n).isEmpty = false := by simp [Text.ofNat]
  rw [streamNumber, hne]
  exact Text.readNat_ofNat n

/-- What can be open around a character of a line. -/
inductive Group
  /-- A span in single quotes. -/
  | single
  /-- A span in double quotes. -/
  | double
  /-- A group in curly braces. -/
  | brace
  deriving DecidableEq

namespace Group

/-- The group that a quote opens and closes. -/
def ofQuote? : Char → Option Group
  | '\'' => some single
  | '"' => some double
  | _ => none

/-- The character that opens a group. -/
def opening : Group → Char
  | single => '\''
  | double => '"'
  | brace => '\x7b'

/-- Whether a group is a quoted span. -/
def isQuote : Group → Bool
  | brace => false
  | _ => true

end Group

end MemShell
