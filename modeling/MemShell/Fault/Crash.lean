import MemShell.Text.Numeral

/-!
# Crashes

An error that is no fault has a kind and, unless it cannot be shown, a text. A number that is not
read is such an error.
-/

namespace MemShell

/-- An error that no shell expects. -/
structure Crash where
  /-- The kind of the error. -/
  kind : Text
  /-- The text of the error; there is none if the error cannot be shown. -/
  text : Option Text
  deriving DecidableEq

/-- The error of a number that is not read. -/
def NumeralError.crash (error : NumeralError) : Crash := ⟨"ValueError", some error.message⟩

end MemShell
