import MemShell.Command.Parser
import MemShell.Fault.Basic

/-!
# Making faults

Each class of faults has parameters of its own. The message follows from them, and those that are
given join the context.
-/

namespace MemShell

/-- The message for a path where nothing is. -/
def notFoundMessage (path : Text) : Text := "File or directory not found: " ++ path

/-- The message for a path where something is already. -/
def alreadyExistsMessage (path : Text) : Text := "A file or directory already exists: " ++ path

/-- The message for a path that leads to no file. -/
def notAFileMessage (path : Text) : Text := "Not a file: " ++ path

/-- The message for a path that leads to no directory. -/
def notADirectoryMessage (path : Text) : Text := "Not a directory: " ++ path

/-- The message for a text that is no name. -/
def invalidNameMessage (name : Text) : Text := "Cannot add node with name '" ++ name ++ "'."

/-- The parameters of a class of faults, in order. -/
def FaultClass.parameters : FaultClass → List Text
  | .core => ["message", "error_code", "recoverable", "context"].map String.toList
  | .configuration => ["message", "key", "context"].map String.toList
  | .environment => ["message", "key", "error_code", "context"].map String.toList
  | .invalidKey | .readOnly | .undefined => ["key".toList]
  | .fileSystem => ["message", "path", "error_code", "context"].map String.toList
  | .notFound | .alreadyExists | .notADirectory => ["path", "context"].map String.toList
  | .notAFile => ["path", "actual_type", "context"].map String.toList
  | .invalidOperation => ["path", "operation", "reason", "context"].map String.toList
  | .invalidName => ["name", "context"].map String.toList
  | .serialization => ["message", "context"].map String.toList
  | .parse => ["message", "token", "error_code", "context"].map String.toList
  | .tokenize => ["message", "position", "context"].map String.toList
  | .expansion | .option | .redirect => ["message", "token", "context"].map String.toList
  | .glob => ["pattern", "context"].map String.toList

namespace Fault

/-- Whether a value was given. -/
def given : Json → Bool
  | .null => false
  | _ => true

/-- The context of a fault, given a value for it: a value that does not count as present leaves the
context empty. -/
def contextOf (value : Json) : Json := if value.isTruthy then value else .object []

/-- A context with a named value, where a condition on the value holds. Only named values can be
joined. -/
def join (condition : Json → Bool) (name : Text) (value context : Json) : Json :=
  match context with
  | .object fields => if condition value then .object (Assoc.put name value fields) else context
  | _ => context

/-- A number, or the number of the class where none is given. -/
def codeOr (c : FaultClass) (code : Json) : Json := if code.isTruthy then code else .int c.code

/-- A fault of settings and set-up. -/
def ofCore (kind : FaultClass) (message code recoverable context : Json)
    (properties : List (Text × Json)) : Fault :=
  ⟨kind, message, codeOr kind code, context, ("recoverable".toList, recoverable) :: properties⟩

/-- A fault of variables. -/
def ofEnvironment (kind : FaultClass) (message key code context : Json) : Fault :=
  ⟨kind, message, codeOr kind code, join given "key" key context, [("key".toList, key)]⟩

/-- A fault of the file system. -/
def ofFileSystem (kind : FaultClass) (message path code context : Json)
    (properties : List (Text × Json)) : Fault :=
  ⟨kind, message, codeOr kind code, join Json.isTruthy "path" path context,
    ("path".toList, path) :: properties⟩

/-- A fault of a command line. -/
def ofParse (kind : FaultClass) (message token code context : Json)
    (properties : List (Text × Json)) : Fault :=
  ⟨kind, message, codeOr kind code, join given "token" token context,
    ("token".toList, token) :: properties⟩

/-- The fault of a class with the given arguments; what is not given is absent. -/
def make (kind : FaultClass) (arguments : List (Text × Json)) : Fault :=
  let arg (name : Text) : Json := (arguments.lookup name).getD .null
  let context := contextOf (arg "context")
  match kind with
  | .core =>
    ofCore kind (arg "message") (arg "error_code")
      ((arguments.lookup "recoverable".toList).getD (.bool false)) context []
  | .configuration =>
    ofCore kind (arg "message") .null (.bool true)
      (join Json.isTruthy "key" (arg "key") context) [("key".toList, arg "key")]
  | .environment => ofEnvironment kind (arg "message") (arg "key") (arg "error_code") context
  | .invalidKey =>
    ofEnvironment kind (.string (VariableError.invalidKey (arg "key").display).message)
      (arg "key") .null (.object [])
  | .readOnly =>
    ofEnvironment kind (.string (VariableError.readOnly (arg "key").display).message)
      (arg "key") .null (.object [])
  | .undefined =>
    ofEnvironment kind (.string (VariableError.undefined (arg "key").display).message)
      (arg "key") .null (.object [])
  | .fileSystem => ofFileSystem kind (arg "message") (arg "path") (arg "error_code") context []
  | .notFound =>
    ofFileSystem kind (.string (notFoundMessage (arg "path").display)) (arg "path") .null context []
  | .alreadyExists =>
    ofFileSystem kind (.string (alreadyExistsMessage (arg "path").display)) (arg "path") .null
      context []
  | .notAFile =>
    ofFileSystem kind (.string (notAFileMessage (arg "path").display)) (arg "path") .null
      (join Json.isTruthy "actual_type" (arg "actual_type") context)
      [("actual_type".toList, arg "actual_type")]
  | .notADirectory =>
    ofFileSystem kind (.string (notADirectoryMessage (arg "path").display)) (arg "path") .null
      context []
  | .invalidOperation =>
    let verb := if (arg "operation").isTruthy then (arg "operation").display else "operation"
    let message :=
      if (arg "reason").isTruthy then arg "reason"
      else .string ("Invalid " ++ verb ++ ": " ++ (arg "path").display)
    ofFileSystem kind message (arg "path") .null
      (join Json.isTruthy "operation" (arg "operation") context)
      [("operation".toList, arg "operation"), ("reason".toList, arg "reason")]
  | .invalidName =>
    ofFileSystem kind (.string (invalidNameMessage (arg "name").display)) .null .null
      (join (fun _ => true) "name" (arg "name") context) [("name".toList, arg "name")]
  | .serialization => ofFileSystem kind (arg "message") .null .null context []
  | .parse => ofParse kind (arg "message") (arg "token") (arg "error_code") context []
  | .tokenize =>
    ofParse kind (arg "message") .null .null (join given "position" (arg "position") context)
      [("position".toList, arg "position")]
  | .expansion | .option | .redirect => ofParse kind (arg "message") (arg "token") .null context []
  | .glob =>
    ofParse kind (.string (ParseError.noMatch (arg "pattern").display).message) (arg "pattern") .null
      context [("pattern".toList, arg "pattern")]

end Fault

end MemShell
