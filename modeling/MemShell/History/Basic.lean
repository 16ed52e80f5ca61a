import MemShell.Map.Slice
import MemShell.Text.Blank

/-!
# Input history

The lines that were entered, the newest first. A reading position moves over them: it starts in
front of the newest line, goes to older lines and comes back, and a new line puts it back to the
start.
-/

namespace MemShell

/-- Why a line of the history cannot be read. -/
inductive HistoryError
  /-- No line is at the position. -/
  | outOfBounds (index : Int)
  deriving DecidableEq

/-- The message of a history error. -/
def HistoryError.message : HistoryError → Text
  | outOfBounds index => "Index '" ++ Text.ofInt index ++ "' is out of bounds."

/-- The lines that were entered and the position of the last one that was recalled. -/
structure History where
  /-- The lines, the newest first. -/
  entries : List Text
  /-- The reading position; -1 is in front of the newest line. -/
  index : Int
  /-- How many lines are kept; all of them without a number. -/
  maxSize : Option Int
  deriving DecidableEq

namespace History

/-- The lines that are kept. A negative size drops that many lines from the old end. -/
def trim (maxSize : Option Int) (entries : List Text) : List Text := takeFirst entries maxSize

/-- A history that starts with some lines, the newest first. -/
def create (entries : List Text) (maxSize : Option Int) : History :=
  ⟨trim maxSize entries, -1, maxSize⟩

instance : Inhabited History := ⟨create [] none⟩

/-- The history with its reading position at the start. -/
def resetIndex (history : History) : History := { history with index := -1 }

/-- Whether a line is worth keeping: it is not blank, and it differs from the newest one in more
than the blanks around it. -/
def isNew (history : History) (entry : Text) : Bool :=
  !(Text.strip entry).isEmpty &&
    match history.entries with
    | [] => true
    | newest :: _ => decide (Text.strip entry ≠ Text.strip newest)

/-- The history after a line has been entered. -/
def add (history : History) (entry : Text) : History :=
  if history.isNew entry then
    { history with entries := trim history.maxSize (entry :: history.entries) }.resetIndex
  else history.resetIndex

/-- The history without lines. -/
def clear (history : History) : History := { history with entries := [] }.resetIndex

/-- The line at a position; in front of the newest line there is an empty one. -/
def get (history : History) (index : Int) : Except HistoryError Text :=
  match index with
  | .negSucc 0 => .ok []
  | .negSucc n => .error (.outOfBounds (.negSucc n))
  | .ofNat n =>
    match history.entries[n]? with
    | some entry => .ok entry
    | none => .error (.outOfBounds n)

/-- The history with its reading position moved, and the line there. -/
def moveTo (history : History) (index : Int) : Except HistoryError Text × History :=
  (history.get index, { history with index := index })

/-- One line newer. -/
def next (history : History) : Except HistoryError Text × History :=
  history.moveTo (max (history.index - 1) (-1))

/-- One line older; the oldest line is the end. -/
def previous (history : History) : Except HistoryError Text × History :=
  history.moveTo (min (history.index + 1) (history.entries.length - 1))

end History

end MemShell
