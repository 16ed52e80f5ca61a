import MemShell.Text.Basic
import MemShell.Text.CaseTable

/-!
# Lower and upper case

Full case mapping. Every character is mapped on its own, except the capital sigma, whose lower-case
form depends on whether it ends a word.
-/

namespace MemShell.Text

/-- The form of a character under runs and special mappings; a character in neither stays. -/
def mapCase (runs : List CaseRun) (specials : List (Nat × List Nat)) (c : Char) : Text :=
  match specials.lookup c.toNat with
  | some image => image.map Char.ofNat
  | none =>
    match runs.find? fun (low, high, step, _) =>
        low ≤ c.toNat && c.toNat ≤ high && (c.toNat - low) % step == 0 with
    | some (_, _, _, shift) => [Char.ofNat ((c.toNat : Int) + shift).toNat]
    | none => [c]

/-- Whether a sigma between two texts, the first of them given backwards, ends a word: a cased
character comes before it and none after it, ignorable characters left aside. -/
def endsWord (before after : Text) : Bool :=
  match before.dropWhile caseIgnorableRanges.has with
  | [] => false
  | c :: _ =>
    casedRanges.has c &&
      match after.dropWhile caseIgnorableRanges.has with
      | [] => true
      | d :: _ => !casedRanges.has d

/-- The lower-case form of a text that follows the given characters, nearest first. -/
def lowerAfter (before : Text) : Text → Text
  | [] => []
  | c :: rest =>
    (if c = 'Σ' then [if endsWord before rest then 'ς' else 'σ']
      else mapCase lowerRuns lowerSpecials c) ++ lowerAfter (c :: before) rest

/-- The lower-case form of a text. -/
def lower (text : Text) : Text := lowerAfter [] text

/-- The upper-case form of a text. -/
def upper (text : Text) : Text := text.flatMap (mapCase upperRuns upperSpecials)

end MemShell.Text
