import MemShell.Fault.Make
import MemShell.Files.Saved
import MemShell.Settings.Basic

/-!
# The faults of causes

Each cause of an error belongs to one class of faults, and its parts become the arguments of the
class.
-/

namespace MemShell

/-- The fault of a class whose arguments are texts. -/
def Fault.ofTexts (kind : FaultClass) (arguments : List (String × Text)) : Fault :=
  Fault.make kind (arguments.map fun (name, value) => (name.toList, .string value))

/-- The fault of a failed file system operation. -/
def FileError.fault : FileError → Fault
  | notFound path => .ofTexts .notFound [("path", path.toText)]
  | alreadyExists path => .ofTexts .alreadyExists [("path", path.toText)]
  | notAFile path => .ofTexts .notAFile [("path", path.toText), ("actual_type", "directory")]
  | notADirectory path => .ofTexts .notADirectory [("path", path.toText)]
  | intoItself transfer source =>
    .ofTexts .invalidOperation [("path", source.toText), ("operation", transfer.name),
      ("reason", "Cannot " ++ transfer.name ++ " '" ++ source.toText ++ "' into itself.")]
  | invalidName name => .ofTexts .invalidName [("name", name)]

/-- The fault of a failed operation on variables. -/
def VariableError.fault : VariableError → Fault
  | invalidKey key => .ofTexts .invalidKey [("key", key)]
  | readOnly key => .ofTexts .readOnly [("key", key)]
  | undefined key => .ofTexts .undefined [("key", key)]

/-- The words that stand for the complaint of a JSON reader. -/
def jsonComplaint : Text := "<json>"

/-- The message of a decoding error. -/
def DecodeError.message : DecodeError → Text
  | invalidJson => "Invalid JSON: " ++ jsonComplaint
  | notAnObject value => "Expected an object, got " ++ value.typeName ++ "."
  | unknownKind tag => "Unknown node type '" ++ tag.display ++ "'."
  | entriesNotAnObject => "Directory nodes must be an object."
  | contentsNotAString => "File contents must be a string."
  | invalidName name => "Cannot add node with name '" ++ name ++ "'."
  | rootNotADirectory => "The root of a file system must be a directory."
  | escaped error => error.fault.message.display

/-- The fault of a tree that cannot be restored. -/
def DecodeError.fault (error : DecodeError) : Fault :=
  let ofContext (context : List (Text × Json)) : Fault :=
    Fault.make .serialization
      [("message".toList, .string error.message), ("context".toList, .object context)]
  match error with
  | escaped cause => cause.fault
  | invalidName name => ofContext [("name".toList, .string name)]
  | _ => ofContext []

/-- The fault of a line that cannot be split. -/
def LexError.fault (error : LexError) : Fault :=
  Fault.make .tokenize
    [("message".toList, .string error.message), ("position".toList, .int error.position)]

/-- The word that cannot be resolved. -/
def WordError.subject : WordError → Text
  | unopenedBrace word => word
  | unclosedGroup word => word
  | missingName word => word

/-- The fault of a word that cannot be resolved. -/
def WordError.fault (error : WordError) : Fault :=
  .ofTexts .expansion [("message", error.message), ("token", error.subject)]

/-- The fault of a command that cannot be parsed. -/
def ParseError.fault (error : ParseError) : Fault :=
  match error with
  | lexical cause => cause.fault
  | .word cause => cause.fault
  | noMatch pattern => .ofTexts .glob [("pattern", pattern)]
  | groupedValue given => .ofTexts .option [("message", error.message), ("token", given)]
  | missingTarget operator => .ofTexts .redirect [("message", error.message), ("token", operator)]
  | ambiguousTarget target => .ofTexts .redirect [("message", error.message), ("token", target)]

/-- The message of a settings error. -/
def SettingsError.message : SettingsError → Text
  | fileMissing name => "Configuration file not found: " ++ name
  | fileIsDirectory _ shown =>
    "Cannot read configuration file: [Errno 21] Is a directory: " ++ Text.quoted shown
  | fileUnreadable _ reason => "Cannot read configuration file: " ++ reason
  | invalidJson _ => "Invalid JSON in configuration file: " ++ jsonComplaint
  | rootNotAnObject => "Configuration root must be a JSON object"
  | sectionNotAnObject value => "Configuration section must be an object, got " ++ value.typeName
  | invalidKey key => "Invalid configuration key: " ++ key
  | unknownLevel name => "Unknown log level: " ++ name

/-- The fault of settings that cannot be loaded or changed. -/
def SettingsError.fault (error : SettingsError) : Fault :=
  let about (name : Text) : List (Text × Json) :=
    [("context".toList, .object [("path".toList, .string name)])]
  let rest :=
    match error with
    | fileMissing name => about name
    | fileIsDirectory name _ => about name
    | fileUnreadable name _ => about name
    | invalidJson name => about name
    | invalidKey key => [("key".toList, .string key)]
    | unknownLevel _ => [("key".toList, .string "logging.level")]
    | _ => []
  Fault.make .configuration (("message".toList, .string error.message) :: rest)

end MemShell
