import MemShell.Json.Basic
import MemShell.Map.Assoc
import MemShell.Text.Numeral

/-!
# Reading JSON

The grammar of JSON, with the three non-finite numbers beside it. Control characters inside a string
are refused, and of two fields with one name the later value stands in the earlier place. A whole
number with too many digits is an error of its own where it is met.
-/

namespace MemShell.Json

/-- Why a text is not read as JSON. -/
inductive ReadError
  /-- It is no JSON. -/
  | malformed
  /-- A whole number in it is not read. -/
  | numeral (error : NumeralError)
  deriving DecidableEq

/-- What has been read, and otherwise the error of a text that is no JSON. -/
def orMalformed {α : Type} : Option α → Except ReadError α
  | some found => .ok found
  | none => .error .malformed

/-- Blanks between tokens. -/
def isSpace (c : Char) : Bool := c == ' ' || c == '\t' || c == '\n' || c == '\r'

/-- A text without the blanks at its start. -/
def skipSpace (text : Text) : Text := text.dropWhile isSpace

/-- The value of a hexadecimal digit. -/
def hexDigit? (c : Char) : Option Nat :=
  if '0' ≤ c ∧ c ≤ '9' then some (c.toNat - '0'.toNat)
  else if 'a' ≤ c ∧ c ≤ 'f' then some (c.toNat - 'a'.toNat + 10)
  else if 'A' ≤ c ∧ c ≤ 'F' then some (c.toNat - 'A'.toNat + 10)
  else none

/-- The code unit that four hexadecimal digits denote. -/
def codeUnit? (a b c d : Char) : Option Nat :=
  match hexDigit? a, hexDigit? b, hexDigit? c, hexDigit? d with
  | some a, some b, some c, some d => some (((a * 16 + b) * 16 + c) * 16 + d)
  | _, _, _, _ => none

/-- Whether a code unit is the first half of a pair. -/
def isHighSurrogate (unit : Nat) : Bool := 0xd800 ≤ unit && unit < 0xdc00

/-- Whether a code unit is the second half of a pair. -/
def isLowSurrogate (unit : Nat) : Bool := 0xdc00 ≤ unit && unit < 0xe000

/-- The character of a code unit that stands alone. Texts have no halves of pairs, so such a half
becomes the replacement character, and strings that differ in such halves only are read alike. -/
def unitChar (unit : Nat) : Char :=
  if isHighSurrogate unit || isLowSurrogate unit then '\ufffd' else Char.ofNat unit

/-- The character that an escape letter stands for. -/
def simpleEscape? : Char → Option Char
  | '"' => some '"'
  | '\\' => some '\\'
  | '/' => some '/'
  | 'b' => some '\x08'
  | 'f' => some '\x0c'
  | 'n' => some '\n'
  | 'r' => some '\r'
  | 't' => some '\t'
  | _ => none

/-- The characters up to the closing quote, and what follows it. -/
def stringBody : Text → Option (Text × Text)
  | [] => none
  | '"' :: rest => some ([], rest)
  | '\\' :: 'u' :: a :: b :: c :: d :: '\\' :: 'u' :: e :: f :: g :: h :: rest =>
    match codeUnit? a b c d, codeUnit? e f g h with
    | some high, some low =>
      if isHighSurrogate high && isLowSurrogate low then
        (stringBody rest).map fun (text, after) =>
          (Char.ofNat (0x10000 + (high - 0xd800) * 0x400 + (low - 0xdc00)) :: text, after)
      else
        (stringBody ('\\' :: 'u' :: e :: f :: g :: h :: rest)).map fun (text, after) =>
          (unitChar high :: text, after)
    | some unit, none =>
      (stringBody ('\\' :: 'u' :: e :: f :: g :: h :: rest)).map fun (text, after) =>
        (unitChar unit :: text, after)
    | none, _ => none
  | '\\' :: 'u' :: a :: b :: c :: d :: rest =>
    match codeUnit? a b c d with
    | some unit => (stringBody rest).map fun (text, after) => (unitChar unit :: text, after)
    | none => none
  | '\\' :: c :: rest =>
    match simpleEscape? c with
    | some char => (stringBody rest).map fun (text, after) => (char :: text, after)
    | none => none
  | c :: rest =>
    if c < ' ' ∨ c = '\\' then none
    else (stringBody rest).map fun (text, after) => (c :: text, after)

/-- The digits at the start of a text, and what follows them. -/
def takeDigits (text : Text) : Text × Text := text.span Char.isDigit

/-- The digits after a decimal point, if there is one with digits behind it. -/
def fraction? : Text → Option (Text × Text)
  | '.' :: rest =>
    let (digits, after) := takeDigits rest
    if digits.isEmpty then none else some (digits, after)
  | _ => none

/-- The power of ten after the letter e, if there is one with digits behind it. -/
def exponent? : Text → Option (Int × Text)
  | 'e' :: rest => signed rest
  | 'E' :: rest => signed rest
  | _ => none
where
  /-- Digits with or without a sign. -/
  signed : Text → Option (Int × Text)
    | '-' :: rest => (unsigned rest).map fun (n, after) => (-(n : Int), after)
    | '+' :: rest => (unsigned rest).map fun (n, after) => ((n : Int), after)
    | rest => (unsigned rest).map fun (n, after) => ((n : Int), after)
  /-- Digits without a sign. -/
  unsigned (text : Text) : Option (Nat × Text) :=
    let (digits, after) := takeDigits text
    if digits.isEmpty then none else some (Text.toNat digits, after)

/-- The digits at the start of a number, and what follows them. A zero stands alone. -/
def wholePart : Text → Text × Text
  | '0' :: rest => (['0'], rest)
  | text => takeDigits text

/-- A number after its sign: a whole number unless a fraction or a power of ten follows. -/
def unsignedNumber (negative : Bool) (text : Text) : Except ReadError (Json × Text) :=
  let (whole, rest) := wholePart text
  if whole.isEmpty then .error .malformed
  else
    let (digits, afterFraction) := (fraction? rest).getD ([], rest)
    match exponent? afterFraction with
    | some (power, after) =>
      .ok (float (Double.ofDecimal negative (Text.toNat (whole ++ digits))
        (power - digits.length)), after)
    | none =>
      if digits.isEmpty then
        match Text.readNat whole with
        | .ok number => .ok (int (if negative then -(number : Int) else number), rest)
        | .error error => .error (.numeral error)
      else
        .ok (float (Double.ofDecimal negative (Text.toNat (whole ++ digits)) (-digits.length)),
          afterFraction)

/-- A literal name or a number. -/
def scalar : Text → Except ReadError (Json × Text)
  | 'n' :: 'u' :: 'l' :: 'l' :: rest => .ok (null, rest)
  | 't' :: 'r' :: 'u' :: 'e' :: rest => .ok (bool true, rest)
  | 'f' :: 'a' :: 'l' :: 's' :: 'e' :: rest => .ok (bool false, rest)
  | 'N' :: 'a' :: 'N' :: rest => .ok (float .nan, rest)
  | 'I' :: 'n' :: 'f' :: 'i' :: 'n' :: 'i' :: 't' :: 'y' :: rest =>
    .ok (float (.infinite false), rest)
  | '-' :: 'I' :: 'n' :: 'f' :: 'i' :: 'n' :: 'i' :: 't' :: 'y' :: rest =>
    .ok (float (.infinite true), rest)
  | '-' :: rest => unsignedNumber true rest
  | text => unsignedNumber false text

mutual

/-- The value at the start of a text, and what follows it. The first argument bounds the depth and
the number of items; the length of the text is always enough. -/
def value : Nat → Text → Except ReadError (Json × Text)
  | 0, _ => .error .malformed
  | fuel + 1, text =>
    match text with
    | '"' :: rest => (orMalformed (stringBody rest)).map fun (s, after) => (string s, after)
    | '[' :: rest =>
      match skipSpace rest with
      | ']' :: after => .ok (array [], after)
      | first => (items fuel first).map fun (list, after) => (array list, after)
    | '\x7b' :: rest =>
      match skipSpace rest with
      | '\x7d' :: after => .ok (object [], after)
      | first => (members fuel first).map fun (list, after) => (object (Assoc.ofList list), after)
    | _ => scalar text

/-- The items of a list up to its closing bracket. -/
def items : Nat → Text → Except ReadError (List Json × Text)
  | 0, _ => .error .malformed
  | fuel + 1, text =>
    match value fuel text with
    | .error error => .error error
    | .ok (item, rest) =>
      match skipSpace rest with
      | ']' :: after => .ok ([item], after)
      | ',' :: next => (items fuel (skipSpace next)).map fun (list, after) => (item :: list, after)
      | _ => .error .malformed

/-- The fields of an object up to its closing brace. -/
def members : Nat → Text → Except ReadError (List (Text × Json) × Text)
  | 0, _ => .error .malformed
  | fuel + 1, text =>
    match text with
    | '"' :: quoted =>
      match stringBody quoted with
      | none => .error .malformed
      | some (name, rest) =>
        match skipSpace rest with
        | ':' :: body =>
          match value fuel (skipSpace body) with
          | .error error => .error error
          | .ok (item, rest) =>
            match skipSpace rest with
            | '\x7d' :: after => .ok ([(name, item)], after)
            | ',' :: next =>
              (members fuel (skipSpace next)).map fun (list, after) => ((name, item) :: list, after)
            | _ => .error .malformed
        | _ => .error .malformed
    | _ => .error .malformed

end

/-- The value that a whole text denotes, blanks around it left aside. What is read first fails
first. -/
def parse (text : Text) : Except ReadError Json :=
  match value (text.length + 1) (skipSpace text) with
  | .ok (json, rest) => if (skipSpace rest).isEmpty then .ok json else .error .malformed
  | .error error => .error error

/-- The value that a whole text denotes, if it is read. -/
def parse? (text : Text) : Option Json := (parse text).toOption

/-- A text is read as a value exactly if this is the value that it denotes. -/
theorem parse?_eq_some_iff {text : Text} {json : Json} :
    parse? text = some json ↔ parse text = .ok json := by
  rw [parse?]
  cases parse text <;> simp [Except.toOption]

end MemShell.Json
