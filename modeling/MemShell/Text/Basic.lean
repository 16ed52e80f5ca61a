/-!
# Text

A text is a list of code points. Every length, position and comparison of the library counts and
orders code points, so the list is the text itself and not a view of it.
-/

namespace MemShell

/-- A sequence of Unicode scalar values. -/
abbrev Text := List Char

instance : Coe String Text := ⟨String.toList⟩

namespace Text

/-- The pieces between the occurrences of a separator; there is always one more piece than
separators. -/
def splitOn (separator : Char) : Text → List Text
  | [] => [[]]
  | c :: rest =>
    if c = separator then [] :: splitOn separator rest
    else
      match splitOn separator rest with
      | [] => [[c]]
      | piece :: pieces => (c :: piece) :: pieces

/-- The pieces one after the other, with a separator between neighbours. -/
def join (separator : Text) : List Text → Text
  | [] => []
  | [piece] => piece
  | piece :: next :: pieces => piece ++ separator ++ join separator (next :: pieces)

/-- The part before the first occurrence of a character, and the part after it if there is one. -/
def cutAt (mark : Char) (text : Text) : Text × Option Text :=
  match text.dropWhile (· ≠ mark) with
  | [] => (text, none)
  | _ :: rest => (text.takeWhile (· ≠ mark), some rest)

/-- A text with a line feed for every line break, which is a carriage return with a line feed after
it or either of them alone. -/
def unifyBreaks : Text → Text
  | [] => []
  | '\r' :: '\n' :: rest => '\n' :: unifyBreaks rest
  | '\r' :: rest => '\n' :: unifyBreaks rest
  | c :: rest => c :: unifyBreaks rest

/-- The decimal digits of a natural number. -/
def ofNat (n : Nat) : Text := Nat.toDigits 10 n

/-- The decimal digits of an integer, with a minus sign before a negative one. -/
def ofInt : Int → Text
  | .ofNat n => ofNat n
  | .negSucc n => '-' :: ofNat (n + 1)

/-- The number that a run of ASCII digits denotes; other characters are not looked at. -/
def toNat (digits : Text) : Nat :=
  digits.foldl (fun n c => 10 * n + (c.toNat - '0'.toNat)) 0

/-- A text filled up with a character on the right to a least width. -/
def padRight (width : Nat) (fill : Char) (text : Text) : Text :=
  text ++ List.replicate (width - text.length) fill

/-- A text filled up with a character on the left to a least width. -/
def padLeft (width : Nat) (fill : Char) (text : Text) : Text :=
  List.replicate (width - text.length) fill ++ text

/-- Whether a text does not come after another in the order of their code points. -/
def notAfter (a b : Text) : Bool := decide ¬b < a

/-- A cut is never empty. -/
theorem splitOn_ne_nil (separator : Char) (text : Text) : splitOn separator text ≠ [] := by
  cases text with
  | nil => simp [splitOn]
  | cons c rest =>
    rw [splitOn]
    split
    · simp
    · split <;> simp

/-- No piece of a cut holds the separator. -/
theorem separator_not_mem_of_mem_splitOn {separator : Char} {text piece : Text}
    (h : piece ∈ splitOn separator text) : separator ∉ piece := by
  induction text generalizing piece with
  | nil =>
    rw [splitOn, List.mem_singleton] at h
    simp [h]
  | cons c rest ih =>
    rw [splitOn] at h
    split at h
    · rcases List.mem_cons.1 h with rfl | h
      · simp
      · exact ih h
    · next hc =>
      split at h
      · next heq => exact absurd heq (splitOn_ne_nil separator rest)
      · next first pieces heq =>
        rcases List.mem_cons.1 h with rfl | h
        · simpa [Ne.symm hc] using ih (heq ▸ List.mem_cons_self)
        · exact ih (heq ▸ List.mem_cons_of_mem first h)

end Text

end MemShell
