import MemShell.Json.Basic

/-!
# Comparing values

Whether two values are the same can be decided, for they are compared part by part.
-/

namespace MemShell

namespace Json

mutual

/-- Whether two values are the same. -/
def same : Json → Json → Bool
  | null, null => true
  | bool a, bool b => a == b
  | int a, int b => a == b
  | float a, float b => a == b
  | string a, string b => a == b
  | array a, array b => sameItems a b
  | object a, object b => sameFields a b
  | _, _ => false

/-- Whether two lists have the same items. -/
def sameItems : List Json → List Json → Bool
  | [], [] => true
  | a :: as, b :: bs => same a b && sameItems as bs
  | _, _ => false

/-- Whether two objects have the same fields in the same order. -/
def sameFields : List (Text × Json) → List (Text × Json) → Bool
  | [], [] => true
  | (key, a) :: as, (other, b) :: bs => key == other && same a b && sameFields as bs
  | _, _ => false

end

mutual

/-- Values that are compared part by part are the same exactly if they are equal. -/
theorem same_iff : ∀ a b : Json, same a b = true ↔ a = b
  | null, b => by cases b <;> simp [same]
  | bool a, b => by cases b <;> simp [same]
  | int a, b => by cases b <;> simp [same]
  | float a, b => by cases b <;> simp [same]
  | string a, b => by cases b <;> simp [same]
  | array a, b => by
    cases b with
    | array b => simp [same, sameItems_iff a b]
    | _ => simp [same]
  | object a, b => by
    cases b with
    | object b => simp [same, sameFields_iff a b]
    | _ => simp [same]

/-- So are their items. -/
theorem sameItems_iff : ∀ a b : List Json, sameItems a b = true ↔ a = b
  | [], b => by cases b <;> simp [sameItems]
  | a :: as, b => by
    cases b with
    | nil => simp [sameItems]
    | cons b bs => simp [sameItems, same_iff a b, sameItems_iff as bs]

/-- So are their fields. -/
theorem sameFields_iff : ∀ a b : List (Text × Json), sameFields a b = true ↔ a = b
  | [], b => by cases b <;> simp [sameFields]
  | (key, a) :: as, b => by
    cases b with
    | nil => simp [sameFields]
    | cons b bs => simp [sameFields, same_iff a b.2, sameFields_iff as bs, Prod.ext_iff]

end

instance : DecidableEq Json := fun a b => decidable_of_iff _ (same_iff a b)

end Json

end MemShell
