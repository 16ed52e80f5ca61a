import MemShell.Json.Double

/-!
# JSON values

The values that configuration files, saved trees and log contexts are made of. The fields of an
object keep their order.
-/

namespace MemShell

/-- A JSON value. Whole numbers and floating-point numbers are kept apart. -/
inductive Json
  /-- The null value. -/
  | null
  /-- A truth value. -/
  | bool (value : Bool)
  /-- A whole number. -/
  | int (value : Int)
  /-- A floating-point number. -/
  | float (value : Double)
  /-- A string. -/
  | string (value : Text)
  /-- A list of values. -/
  | array (items : List Json)
  /-- Named values, in order. -/
  | object (fields : List (Text × Json))

namespace Json

instance : Inhabited Json := ⟨null⟩

/-- A text as a JSON string. -/
def ofText (text : Text) : Json := .string text

instance : Coe Text Json := ⟨ofText⟩

instance : Coe Nat Json := ⟨fun n => .int n⟩

/-- The value of a field of an object. -/
def field? (json : Json) (name : Text) : Option Json :=
  match json with
  | object fields => fields.lookup name
  | _ => none

/-- The text of a string; other values have none. -/
def text? : Json → Option Text
  | string text => some text
  | _ => none

/-- The whole number that a value counts as: a truth value counts as one or zero. -/
def number? : Json → Option Int
  | int value => some value
  | bool value => some (if value then 1 else 0)
  | _ => none

/-- The fields of an object; other values have none. -/
def fields : Json → List (Text × Json)
  | object fields => fields
  | _ => []

/-- The values that going through a value gives: the items of a list, the characters of a string,
the names of the fields of an object. -/
def parts : Json → List Json
  | array items => items
  | string text => text.map fun c => string [c]
  | object fields => fields.map fun (name, _) => string name
  | _ => []

/-- Whether a value counts as present: null, false, zero and everything empty do not. -/
def isTruthy : Json → Bool
  | null => false
  | bool value => value
  | int value => value != 0
  | float value => !value.isZero
  | string value => !value.isEmpty
  | array items => !items.isEmpty
  | object fields => !fields.isEmpty

/-- The name of the kind of a value, as error messages give it. -/
def typeName : Json → Text
  | null => "NoneType"
  | bool _ => "bool"
  | int _ => "int"
  | float _ => "float"
  | string _ => "str"
  | array _ => "list"
  | object _ => "dict"

end Json

end MemShell
