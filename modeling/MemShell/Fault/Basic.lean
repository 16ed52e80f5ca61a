import MemShell.Json.Display
import MemShell.Map.Assoc

/-!
# Faults

A fault is an error as it is shown: a class, a number, a message and a context of named values. The
classes form four families, and each family writes its faults in its own way.
-/

namespace MemShell

/-- The classes of faults. -/
inductive FaultClass
  /-- Any fault of settings and set-up. -/
  | core
  /-- The settings could not be loaded or changed. -/
  | configuration
  /-- Any fault of variables. -/
  | environment
  /-- A key has a character that no key has. -/
  | invalidKey
  /-- A protected variable was to be changed. -/
  | readOnly
  /-- A variable is not set. -/
  | undefined
  /-- Any fault of the file system. -/
  | fileSystem
  /-- Nothing is at a path. -/
  | notFound
  /-- Something is at a path already. -/
  | alreadyExists
  /-- A path leads to no file. -/
  | notAFile
  /-- A path leads to no directory. -/
  | notADirectory
  /-- An operation makes no sense for its paths. -/
  | invalidOperation
  /-- A text is no name. -/
  | invalidName
  /-- A tree could not be saved or restored. -/
  | serialization
  /-- Any fault of a command line. -/
  | parse
  /-- A line could not be split. -/
  | tokenize
  /-- A word could not be resolved. -/
  | expansion
  /-- A pattern matches nothing. -/
  | glob
  /-- An option could not be understood. -/
  | option
  /-- A redirect has no target. -/
  | redirect
  deriving DecidableEq

namespace FaultClass

/-- The class at the head of the family of a class. -/
def family : FaultClass → FaultClass
  | core | configuration => core
  | environment | invalidKey | readOnly | undefined => environment
  | fileSystem | notFound | alreadyExists | notAFile | notADirectory | invalidOperation
  | invalidName | serialization => fileSystem
  | parse | tokenize | expansion | glob | option | redirect => parse

/-- The name of a class. -/
def name : FaultClass → Text
  | core => "CoreException"
  | configuration => "ConfigurationError"
  | environment => "EnvironmentException"
  | invalidKey => "InvalidVariableKeyError"
  | readOnly => "ReadOnlyVariableError"
  | undefined => "UndefinedVariableError"
  | fileSystem => "FileSystemException"
  | notFound => "FileNotFoundError"
  | alreadyExists => "FileExistsError"
  | notAFile => "NotAFileError"
  | notADirectory => "NotADirectoryError"
  | invalidOperation => "InvalidOperationError"
  | invalidName => "InvalidNodeNameError"
  | serialization => "SerializationError"
  | parse => "ParseException"
  | tokenize => "TokenizeError"
  | expansion => "ExpansionError"
  | glob => "GlobError"
  | option => "OptionError"
  | redirect => "RedirectError"

/-- All classes. -/
def all : List FaultClass :=
  [core, configuration, environment, invalidKey, readOnly, undefined, fileSystem, notFound,
    alreadyExists, notAFile, notADirectory, invalidOperation, invalidName, serialization, parse,
    tokenize, expansion, glob, option, redirect]

/-- The class of a name. -/
def ofName? (text : Text) : Option FaultClass := all.find? fun c => c.name = text

/-- The names of the classes above a class, the nearest first. -/
def bases (c : FaultClass) : List Text := if c = c.family then [] else [c.family.name]

/-- The number of a class. -/
def code : FaultClass → Nat
  | core => 1000
  | configuration => 1001
  | environment => 2000
  | invalidKey => 2001
  | readOnly => 2002
  | undefined => 2003
  | fileSystem => 4000
  | notFound => 4001
  | alreadyExists => 4002
  | notAFile => 4008
  | notADirectory => 4009
  | invalidOperation => 4010
  | invalidName => 4011
  | serialization => 4012
  | parse => 5000
  | tokenize => 5001
  | expansion => 5002
  | glob => 5003
  | option => 5004
  | redirect => 5005

end FaultClass

/-- An error as it is shown. -/
structure Fault where
  /-- The class. -/
  kind : FaultClass
  /-- What happened. -/
  message : Json
  /-- The number, which the heads of families can be given freely. -/
  code : Json
  /-- Named values around the error, or whatever was given in their place. -/
  context : Json
  /-- Further named properties of the class. -/
  properties : List (Text × Json)

namespace Fault

/-- A named property. -/
def property (fault : Fault) (name : Text) : Json := (fault.properties.lookup name).getD .null

/-- Number and message. -/
def headline (fault : Fault) : Text :=
  "[Error " ++ fault.code.display ++ "] " ++ fault.message.display

/-- Named values with a sign between name and value. -/
def pairs (fields : List (Text × Json)) : List Text :=
  fields.map fun (name, value) => name ++ "=" ++ value.display

/-- The fault on one line: set-up faults show their context, and faults of the file system their
path. -/
def text (fault : Fault) : Text :=
  match fault.kind.family with
  | .core =>
    if fault.context.fields.isEmpty then fault.headline
    else fault.headline ++ " (" ++ Text.join ", " (pairs fault.context.fields) ++ ")"
  | .fileSystem =>
    if (fault.property "path").isTruthy then
      fault.headline ++ " (path=" ++ (fault.property "path").display ++ ")"
    else fault.headline
  | _ => fault.headline

/-- The listing of a set-up fault; the other families have none. -/
def listing (fault : Fault) : Option Text :=
  if fault.kind.family = .core then
    some (fault.kind.name ++ "(message=" ++ fault.message.inner ++ ", error_code=" ++
      fault.code.display ++ ", recoverable=" ++ (fault.property "recoverable").display ++ ")")
  else none

end Fault

end MemShell
