import MemShell.Command.Parser
import MemShell.Shell.Action

/-!
# The journal

What is logged about variables, files and parsing. The records of a file operation follow from the
file system before it; an operation that fails logs nothing. The parser logs word by word, so a
command that fails has logged the words before the failing one.
-/

namespace MemShell

namespace Journal

/-- A variable has been set. -/
def variableSet (key : Text) : Record :=
  .detail "environment" "Variable set" [("key", .string key)]

/-- A node has been added. -/
def added (path : Path) (kind : Kind) : Record :=
  .detail "filesystem" "Added node" [("path", .string path.toText), ("type", .string kind.name)]

/-- Directories have been made above a path, and then a node has been added there. -/
def addedBelow (fs : FileSystem) (path : Path) (kind : Kind) : List Record :=
  ((path.ancestors.reverse.filter fun ancestor => !fs.has ancestor).map fun ancestor =>
    added ancestor .directory) ++ [added path kind]

/-- A node has been carried to another path. -/
def carried (transfer : Transfer) (source destination : Path) (kind : Kind) : List Record :=
  let done := match transfer with
    | .copy => "Copied node"
    | .move => "Moved node"
  [added destination kind,
    .detail "filesystem" done
      [("source", .string source.toText), ("destination", .string destination.toText)]]

/-- The node at a path has been removed. -/
def removed (fs : FileSystem) (path : Path) : List Record :=
  if path.isRoot then [.detail "filesystem" "Emptied root directory" []]
  else if fs.has path then
    [.detail "filesystem" "Removed node" [("path", .string path.toText)]]
  else []

/-- The file at a path has been opened, and made if it was missing. -/
def opened (fs : FileSystem) (path : Path) : List Record :=
  if fs.has path then [] else [added path .file]

/-- The first directories have been made. -/
def layoutMade (count : Nat) : Record :=
  .detail "filesystem" "Default file system created" [("directories", .int count)]

/-- A file system has been written as text. -/
def saved (size : Nat) : Record :=
  .detail "filesystem" "Serialized file system" [("size", .int size)]

/-- A line has been split into tokens. -/
def tokenized (tokens : List Token) : Record :=
  .detail "parser" "Tokenized input" [("tokens", .int tokens.length)]

/-- The records of expanding a word. -/
def ofWord (env : Environment) (fs : FileSystem) (word : Text) : List Record :=
  match Word.mark env word with
  | .error _ => []
  | .ok marked =>
    .detail "parser" "Marked token" [("token", .string word)] ::
      if Glob.isSearched fs (Path.ofText env.cwd) marked then
        match Glob.expand? fs (Path.ofText env.cwd) marked with
        | none => []
        | some found =>
          [.detail "parser" "Expanded glob"
            [("pattern", .string (Marked.unmark marked)), ("matches", .int found.length)]]
      else []

/-- The records of expanding the words of a command one after the other, up to the first that fails.
-/
def ofTokens (env : Environment) (fs : FileSystem) : List Token → List Record
  | [] => []
  | .word value :: rest => ofWord env fs value ++
    match Word.expand env fs value with
    | .error _ => []
    | .ok _ => ofTokens env fs rest
  | .redirect digits _ :: .word target :: rest => ofWord env fs target ++
    match Word.expand env fs target, streamNumber digits with
    | .ok [_], .ok _ => ofTokens env fs rest
    | _, _ => []
  | .redirect _ _ :: _ => []
  | .separator :: rest => ofTokens env fs rest

/-- A command has been parsed; one without a name is not mentioned. -/
def parsed (invocation : Invocation) : List Record :=
  match invocation.command with
  | none => []
  | some name =>
    [.detail "parser" "Parsed command"
      [("command", .string name), ("argc", .int invocation.argc)]]

/-- The records of parsing a command. -/
def ofCommand (env : Environment) (fs : FileSystem) (tokens : List Token) : List Record :=
  ofTokens env fs tokens ++
    match Invocation.ofTokens env fs tokens with
    | .error _ => []
    | .ok invocation => parsed invocation

/-- A command has been registered. -/
def registered (name : Text) : Record :=
  .detail "shell" "Registered command" [("command", .string name)]

/-- A redirect of a stream that no command has goes nowhere. -/
def redirectIgnored (stream : Int) : Record :=
  .detail "shell" "Redirect of unsupported stream ignored" [("stream", .int stream)]

/-- There is no handler for a command. -/
def unknownCommand (name : Text) : Record :=
  .plain .warning "shell" "Unknown command" [("command".toList, .string name)]

/-- A command or a line has failed. -/
def failed (fault : Fault) (command : Option Text) : Record :=
  .plain .warning "shell" fault.message.display
    (("error_code".toList, fault.code) ::
      match command with
      | some (c :: rest) => [("command".toList, .string (c :: rest))]
      | _ => [])

/-- An error has escaped from a command. -/
def crashed (crash : Crash) : Record :=
  { level := .error, subsystem := some "shell", message := "Shell error", context := .object []
    failure := some (.ofCrash crash) }

/-- The settings have been changed under a key. -/
def settingsChanged (key : Text) : Record :=
  .detail "config" "Configuration updated" [("key", .string key)]

end Journal

namespace Action

/-- Sets a variable with a way of setting it. -/
def setVariable (op : Text → Json → VariableOp Unit) (key : Text) (value : Json) :
    Action Mishap Unit := do
  onVariables (op key value)
  log (Journal.variableSet key)

/-- An operation on the file system that is logged when it succeeds. -/
def onFilesLogged {α : Type} (op : FileOp α) (records : FileSystem → List Record) :
    Action Mishap α := do
  let before := (← world).files
  let value ← onFiles op
  logAll (records before)
  return value

/-- Adds a tree at a path. -/
def addTree (path : Path) (tree : Tree) (createParents : Bool) : Action Mishap Unit :=
  onFilesLogged (discard (FileSystem.add path tree createParents))
    fun fs => Journal.addedBelow fs path tree.kind

/-- Carries the node at a path to another one. -/
def carry (transfer : Transfer) (op : FileOp Unit) (source destination : Path) :
    Action Mishap Unit :=
  onFilesLogged op fun fs =>
    match fs.get source with
    | some node => Journal.carried transfer source destination node.kind
    | none => []

/-- Removes the node at a path. -/
def removeNode (path : Path) : Action Mishap Unit :=
  onFilesLogged (modify (·.remove path)) (Journal.removed · path)

/-- Opens the file at a path behind a new handle. -/
def openFile (path : Path) (mode : OpenMode) : Action Mishap Handle := do
  openEndpoint (.stream (← onFilesLogged (FileSystem.openAt path mode) (Journal.opened · path)))

end Action

end MemShell
