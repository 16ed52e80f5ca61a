import MemShell.Map.Ordered
import MemShell.Text.Digit

/-!
# Options

The words of a command start with options. An option is a dash and a letter, several letters behind
one dash, or a long name behind two dashes; one name at a time can be given a value after an equals
sign. Two dashes alone end the options and are dropped.
-/

namespace MemShell

/-- Options by name, each with its value if one was given. -/
abbrev Options := OrderedMap Text (Option Text)

namespace Options

/-- What a word means where an option may stand. -/
inductive WordClass
  /-- The word is an argument, and no option comes after it. -/
  | argument
  /-- The word ends the options. -/
  | terminator
  /-- The word sets options. -/
  | settings (pairs : List (Text × Option Text))
  /-- The word gives a value to several letters. -/
  | groupedValue
  deriving DecidableEq

/-- Whether a text can be the name of an option: it is not empty and starts with no digit. -/
def isName : Text → Bool
  | [] => false
  | c :: _ => !Text.isDigit c

/-- The meaning of a word where an option may stand. -/
def classify (word : Text) : WordClass :=
  match Text.cutAt '=' word with
  | (key, value) =>
    match key with
    | '-' :: '-' :: name =>
      if word = ['-', '-'] then .terminator
      else if ' ' ∈ name || !isName name then .argument
      else .settings [(name, value)]
    | '-' :: name =>
      if ' ' ∈ name || !isName name then .argument
      else if name.length = 1 then .settings [(name, value)]
      else if value.isSome then .groupedValue
      else .settings (name.map fun c => ([c], none))
    | _ => .argument

/-- The options after a list of settings. -/
def setAll (options : Options) (pairs : List (Text × Option Text)) : Options :=
  pairs.foldl (fun options pair => options.insert pair.1 pair.2) options

/-- The options at the start of a list of words, added to the ones given, and the words after them.
The error is the word that gives a value to several letters. -/
def readFrom (options : Options) : List Text → Except Text (Options × List Text)
  | [] => .ok (options, [])
  | word :: rest =>
    match classify word with
    | .argument => .ok (options, word :: rest)
    | .terminator => .ok (options, rest)
    | .settings pairs => readFrom (options.setAll pairs) rest
    | .groupedValue => .error word

/-- The options at the start of a list of words, and the words after them. -/
def read (words : List Text) : Except Text (Options × List Text) := readFrom .empty words

end Options

end MemShell
