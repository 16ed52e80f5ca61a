/-!
# Ends of lists

The first or the last items of a list. A negative count is counted from the other end.
-/

namespace MemShell

/-- The first items of a list: all of them without a count, and with a negative count all but that
many of the last ones. -/
def takeFirst {α : Type} (items : List α) : Option Int → List α
  | none => items
  | some (.ofNat n) => items.take n
  | some (.negSucc n) => items.take (items.length - (n + 1))

/-- The last items of a list: all of them for the count zero, and with a negative count all but that
many of the first ones. -/
def takeLast {α : Type} (items : List α) : Int → List α
  | .ofNat 0 => items
  | .ofNat (n + 1) => items.drop (items.length - (n + 1))
  | .negSucc n => items.drop (n + 1)

end MemShell
