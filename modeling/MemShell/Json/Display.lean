import MemShell.Json.Basic
import MemShell.Text.Quoted

/-!
# Display text of values

The text that stands for a value where a value becomes part of a line: a string is its own text, and
inside a collection it is quoted.
-/

namespace MemShell.Json

mutual

/-- The text of a value inside a collection. -/
def inner : Json → Text
  | null => "None"
  | bool true => "True"
  | bool false => "False"
  | int value => Text.ofInt value
  | float value => value.toText
  | string value => Text.quoted value
  | array items => "[" ++ Text.join ", " (innerItems items) ++ "]"
  | object fields => "\x7b" ++ Text.join ", " (innerFields fields) ++ "\x7d"

/-- The texts of the items of a list. -/
def innerItems : List Json → List Text
  | [] => []
  | item :: items => item.inner :: innerItems items

/-- The texts of the fields of an object. -/
def innerFields : List (Text × Json) → List Text
  | [] => []
  | (name, value) :: fields => (Text.quoted name ++ ": " ++ value.inner) :: innerFields fields

end

/-- The text of a value that stands alone. -/
def display : Json → Text
  | string value => value
  | value => value.inner

/-- A string stands for itself. -/
@[simp] theorem display_string (value : Text) : (string value).display = value := rfl

end MemShell.Json
