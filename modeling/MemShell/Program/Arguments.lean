import MemShell.Text.Digit

/-!
# Command line arguments

The program takes options only. A long option may be shortened as long as it stays unique, and its
value follows as the next argument or after an equals sign. Every argument is first sorted into what
it looks like, and an ambiguous one is refused before anything else is looked at.
-/

namespace MemShell

/-- The options of the program. -/
inductive ProgramOption
  /-- Shows the options. -/
  | help
  /-- Names a file with settings. -/
  | config
  /-- Names the least level that is logged. -/
  | logLevel
  /-- Runs a scripted session. -/
  | headless
  /-- Shows the version. -/
  | version
  deriving DecidableEq

namespace ProgramOption

/-- The options in order. -/
def all : List ProgramOption := [help, config, logLevel, headless, version]

/-- The long form of an option. -/
def long : ProgramOption → Text
  | help => "--help"
  | config => "--config"
  | logLevel => "--log-level"
  | headless => "--headless"
  | version => "--version"

/-- The one short option. -/
def short : Text := "-h"

end ProgramOption

/-- What an argument looks like. -/
inductive ArgumentShape
  /-- A value. -/
  | plain
  /-- The two dashes after which all arguments are values. -/
  | separator
  /-- An option that does not exist. -/
  | unknown
  /-- An option, and the text attached to it in the same argument. -/
  | option (option : ProgramOption) (isShort : Bool) (attached : Option Text)
  deriving DecidableEq

/-- What the arguments ask for. -/
structure Arguments where
  /-- The file with settings. -/
  config : Option Text
  /-- The least level that is logged. -/
  logLevel : Option Text
  /-- Whether a scripted session is to be run. -/
  headless : Bool
  deriving DecidableEq

/-- What the program is to do. -/
inductive Request
  /-- To run. -/
  | run (arguments : Arguments)
  /-- To show its options. -/
  | showHelp
  /-- To show its version. -/
  | showVersion
  /-- To refuse the arguments. -/
  | refuse
  deriving DecidableEq

namespace ArgumentShape

/-- Whether a text looks like a negative number: a dash and digits, with a point before the last of
them at most, and maybe a line break at the end. -/
def isNegativeNumber (argument : Text) : Bool :=
  let argument := if argument.getLast? = some '\n' then argument.dropLast else argument
  match argument with
  | '-' :: number =>
    match Text.cutAt '.' number with
    | (whole, none) => !whole.isEmpty && whole.all Text.isDecimalDigit
    | (whole, some fraction) =>
      whole.all Text.isDecimalDigit && !fraction.isEmpty && fraction.all Text.isDecimalDigit
  | _ => false

/-- What an argument looks like that starts with a dash and is no option. -/
def ofOther (argument : Text) : ArgumentShape :=
  if isNegativeNumber argument || argument.contains ' ' then plain else unknown

/-- What an argument of two dashes and more looks like; nothing if it could be several options. -/
def ofLong? (argument : Text) : Option ArgumentShape :=
  let (name, text) := Text.cutAt '=' argument
  match ProgramOption.all.find? fun o => o.long = name with
  | some o => some (.option o false text)
  | none =>
    match ProgramOption.all.filter fun o => name.isPrefixOf o.long with
    | [] => some (ofOther argument)
    | [o] => some (.option o false text)
    | _ => none

/-- What an argument looks like; nothing if it could be several options. -/
def of? (argument : Text) : Option ArgumentShape :=
  match argument with
  | '-' :: '-' :: _ => ofLong? argument
  | ['-', 'h'] => some (.option .help true none)
  | '-' :: 'h' :: '=' :: text => some (.option .help true (some text))
  | '-' :: 'h' :: text => some (.option .help true (some text))
  | '-' :: _ :: _ => some (ofOther argument)
  | _ => some plain

/-- What the arguments look like; nothing if one of them could be several options. -/
def ofAll? : List Text → Option (List (Text × ArgumentShape))
  | [] => some []
  | argument :: rest =>
    if argument = ['-', '-'] then
      some ((argument, separator) :: rest.map fun value => (value, plain))
    else do
      let shape ← of? argument
      return (argument, shape) :: (← ofAll? rest)

end ArgumentShape

namespace Request

/-- Whether a text may be attached to the short option: it is the same letter over and over. -/
def isRepetition (text : Text) : Bool := !text.isEmpty && text.all (· = 'h')

/-- The value that a text attached to an option stands for. Two dashes alone are the separator,
which leaves the value empty. -/
def attachedValue (text : Text) : Text := if text = ['-', '-'] then [] else text

/-- The arguments with the value of an option. -/
def withValue (arguments : Arguments) (value : Text) : ProgramOption → Arguments
  | .config => { arguments with config := some value }
  | .logLevel => { arguments with logLevel := some value }
  | _ => arguments

/-- What the rest of the arguments asks for, after some of them have been read and it is known
whether one of those was superfluous. -/
def read (arguments : Arguments) (superfluous : Bool) : List (Text × ArgumentShape) → Request
  | [] => if superfluous then .refuse else .run arguments
  | (_, .option .help isShort attached) :: _ =>
    match attached with
    | none => .showHelp
    | some text => if isShort && isRepetition text then .showHelp else .refuse
  | (_, .option .version _ attached) :: _ =>
    if attached.isNone then .showVersion else .refuse
  | (_, .option .headless _ attached) :: rest =>
    if attached.isNone then read { arguments with headless := true } superfluous rest else .refuse
  | (_, .option o _ (some text)) :: rest =>
    read (withValue arguments (attachedValue text) o) superfluous rest
  | (_, .option o _ none) :: (value, .plain) :: rest =>
    read (withValue arguments value o) superfluous rest
  | (_, .option _ _ _) :: _ => .refuse
  | _ :: rest => read arguments true rest

/-- What the arguments of the program ask for. -/
def ofArguments (arguments : List Text) : Request :=
  match ArgumentShape.ofAll? arguments with
  | none => .refuse
  | some shapes => read ⟨none, none, false⟩ false shapes

end Request

end MemShell
