import MemShell.Json.Basic
import MemShell.Text.Quoted

/-!
# Writing JSON

A value on one line or over indented lines. The style says which of the two, what separates items
and names, whether fields are sorted, and whether characters outside ASCII are escaped.
-/

namespace MemShell.Json

/-- How a value is written. -/
structure Style where
  /-- The text that each level is indented by, or nothing for one line. -/
  indent : Option Text
  /-- Whether the fields of every object are put into the order of their names. -/
  sortKeys : Bool
  /-- Whether characters outside ASCII are escaped. -/
  asciiOnly : Bool
  /-- What stands between two items. -/
  itemSeparator : Text
  /-- What stands between a name and its value. -/
  keySeparator : Text
  deriving DecidableEq

/-- The style of one line with spaces after separators. -/
def Style.spaced : Style := ⟨none, false, true, ", ", ": "⟩

/-- The style of one line without spaces. -/
def Style.compact : Style := ⟨none, false, true, ",", ":"⟩

/-- Why separators make no style. -/
inductive StyleError
  /-- There are not exactly two of them. -/
  | separatorCount (given : Nat)
  deriving DecidableEq

/-- The message of a style error. -/
def StyleError.message : StyleError → Text
  | separatorCount given =>
    if given < 2 then "not enough values to unpack (expected 2, got " ++ Text.ofNat given ++ ")"
    else "too many values to unpack (expected 2)"

/-- A style with a separator of items and one of names and values. -/
def Style.withSeparators (style : Style) : List Text → Except StyleError Style
  | [item, key] => .ok { style with itemSeparator := item, keySeparator := key }
  | given => .error (.separatorCount given.length)

/-- A code unit as an escape sequence. -/
def escapeUnit (unit : Nat) : Text := ['\\', 'u'] ++ Text.hex 4 unit

/-- A character as it stands inside a string. -/
def escapeChar (asciiOnly : Bool) (c : Char) : Text :=
  if c = '"' ∨ c = '\\' then ['\\', c]
  else if c = '\n' then ['\\', 'n']
  else if c = '\r' then ['\\', 'r']
  else if c = '\t' then ['\\', 't']
  else if c = '\x0c' then ['\\', 'f']
  else if c = '\x08' then ['\\', 'b']
  else if c < ' ' then escapeUnit c.toNat
  else if !asciiOnly || c < '\x7f' then [c]
  else if c.toNat < 0x10000 then escapeUnit c.toNat
  else
    escapeUnit (0xd800 + (c.toNat - 0x10000) / 0x400) ++
      escapeUnit (0xdc00 + (c.toNat - 0x10000) % 0x400)

/-- A string between quotes. -/
def writeString (asciiOnly : Bool) (text : Text) : Text :=
  ['"'] ++ text.flatMap (escapeChar asciiOnly) ++ ['"']

/-- The written form of a floating-point number. -/
def writeDouble : Double → Text
  | .nan => "NaN"
  | .infinite false => "Infinity"
  | .infinite true => "-Infinity"
  | number => number.toText

/-- The line break before an item at a depth; on one line there is none. -/
def Style.lineBreak (style : Style) (depth : Nat) : Text :=
  match style.indent with
  | none => []
  | some step => '\n' :: (List.replicate depth step).flatten

/-- Written items between brackets. -/
def Style.enclose (style : Style) (depth : Nat) (opening closing : Char) (parts : List Text) :
    Text :=
  if parts.isEmpty then [opening, closing]
  else
    [opening] ++ style.lineBreak (depth + 1) ++
      Text.join (style.itemSeparator ++ style.lineBreak (depth + 1)) parts ++
      style.lineBreak depth ++ [closing]

mutual

/-- A value at a depth, its fields in the order that they have. -/
def writeAt (style : Style) (depth : Nat) : Json → Text
  | null => "null"
  | bool true => "true"
  | bool false => "false"
  | int value => Text.ofInt value
  | float value => writeDouble value
  | string value => writeString style.asciiOnly value
  | array items => style.enclose depth '[' ']' (writeItems style (depth + 1) items)
  | object fields => style.enclose depth '\x7b' '\x7d' (writeFields style (depth + 1) fields)

/-- The written items of a list. -/
def writeItems (style : Style) (depth : Nat) : List Json → List Text
  | [] => []
  | item :: items => writeAt style depth item :: writeItems style depth items

/-- The written fields of an object. -/
def writeFields (style : Style) (depth : Nat) : List (Text × Json) → List Text
  | [] => []
  | (name, item) :: fields =>
    (writeString style.asciiOnly name ++ style.keySeparator ++ writeAt style depth item) ::
      writeFields style depth fields

end

/-- Pairs in the order of their names. -/
def sortByName {α : Type} (fields : List (Text × α)) : List (Text × α) :=
  fields.mergeSort fun a b => Text.notAfter a.1 b.1

mutual

/-- A value with the fields of every object in the order of their names. -/
def sorted : Json → Json
  | array items => array (sortedItems items)
  | object fields => object (sortByName (sortedFields fields))
  | value => value

/-- The items of a list with their fields in order. -/
def sortedItems : List Json → List Json
  | [] => []
  | item :: items => item.sorted :: sortedItems items

/-- The values of fields with their own fields in order. -/
def sortedFields : List (Text × Json) → List (Text × Json)
  | [] => []
  | (name, item) :: fields => (name, item.sorted) :: sortedFields fields

end

/-- The written form of a value. -/
def write (style : Style) (value : Json) : Text :=
  writeAt style 0 (if style.sortKeys then value.sorted else value)

end MemShell.Json
