import MemShell.Host.Files
import MemShell.Json.Display
import MemShell.Json.Reader

/-!
# Settings

The settings of a session in four sections. A file overlays the built-in values field by field. Any
value can stand in a field, and in the place of a whole section too.
-/

namespace MemShell

/-- The fields of a section. -/
abbrev Fields := List (Text × Json)

/-- The sections of the settings. -/
inductive SectionName
  /-- Prompt and history. -/
  | shell
  /-- The first variables of a session. -/
  | environment
  /-- The first directories of a session. -/
  | filesystem
  /-- What is logged, and where. -/
  | logging
  deriving DecidableEq

namespace SectionName

/-- The sections in order. -/
def all : List SectionName := [shell, environment, filesystem, logging]

/-- The key of a section. -/
def key : SectionName → Text
  | shell => "shell"
  | environment => "environment"
  | filesystem => "filesystem"
  | logging => "logging"

/-- The section of a key. -/
def ofKey? (key : Text) : Option SectionName := all.find? fun name => name.key = key

/-- The name of the kind of a section. -/
def title : SectionName → Text
  | shell => "ShellConfig"
  | environment => "EnvironmentConfig"
  | filesystem => "FilesystemConfig"
  | logging => "LoggingConfig"

/-- The fields of a section with their built-in values. -/
def defaults : SectionName → Fields
  | shell =>
    [("prompt_suffix".toList, .string "$ "), ("hostname".toList, .string "shellsim"),
      ("history_size".toList, .int 1000)]
  | environment =>
    [("readonly_keys".toList, .array [.string "cwd", .string "home", .string "user"]),
      ("defaults".toList, .object [("user".toList, .string "user"),
        ("home".toList, .string "/home/user"), ("cwd".toList, .string "/home/user")])]
  | filesystem =>
    [("standard_dirs".toList, .array [.string "/bin/", .string "/dev/", .string "/home/user/",
        .string "/root/", .string "/tmp/"]),
      ("null_device".toList, .string "/dev/null")]
  | logging =>
    [("level".toList, .string "WARNING"), ("log_file".toList, .null),
      ("console_output".toList, .bool true), ("max_buffer_entries".toList, .int 10000)]

end SectionName

/-- What stands in the place of a section. -/
inductive Slot
  /-- The fields of the section. -/
  | fields (fields : Fields)
  /-- A value that has been stored over the section. -/
  | replaced (value : Json)

/-- The settings of a session. -/
structure Settings where
  /-- What stands in the place of each section. -/
  shell : Slot
  /-- The environment section. -/
  environment : Slot
  /-- The file system section. -/
  filesystem : Slot
  /-- The logging section. -/
  logging : Slot

/-- Why settings cannot be loaded or changed. -/
inductive SettingsError
  /-- There is no file of the name. -/
  | fileMissing (name : Text)
  /-- The file is a directory, which has a name of its own. -/
  | fileIsDirectory (name shown : Text)
  /-- The file cannot be read. -/
  | fileUnreadable (name reason : Text)
  /-- The file holds no JSON. -/
  | invalidJson (name : Text)
  /-- The file does not hold an object. -/
  | rootNotAnObject
  /-- A section in the file is not an object. -/
  | sectionNotAnObject (value : Json)
  /-- A key names no field and no section. -/
  | invalidKey (key : Text)
  /-- A log level has no known name. -/
  | unknownLevel (name : Text)

/-- Why an operation on settings fails. -/
inductive SettingsFailure
  /-- The settings or the key are refused. -/
  | refused (error : SettingsError)
  /-- With an error that has nothing to do with settings. -/
  | crash (crash : Crash)

namespace Settings

/-- The built-in settings. -/
def builtIn : Settings where
  shell := .fields SectionName.shell.defaults
  environment := .fields SectionName.environment.defaults
  filesystem := .fields SectionName.filesystem.defaults
  logging := .fields SectionName.logging.defaults

instance : Inhabited Settings := ⟨builtIn⟩

/-- What stands in the place of a section. -/
def slot (settings : Settings) : SectionName → Slot
  | .shell => settings.shell
  | .environment => settings.environment
  | .filesystem => settings.filesystem
  | .logging => settings.logging

/-- The settings with something in the place of a section. -/
def setSlot (settings : Settings) (name : SectionName) (slot : Slot) : Settings :=
  match name with
  | .shell => { settings with shell := slot }
  | .environment => { settings with environment := slot }
  | .filesystem => { settings with filesystem := slot }
  | .logging => { settings with logging := slot }

/-- The fields of a section overlaid with the values of an object. -/
def overlay (name : SectionName) (values : Fields) : Fields :=
  name.defaults.map fun (key, default) => (key, (values.lookup key).getD default)

/-- The section that a file describes, if it mentions it. -/
def readSection (root : Fields) (name : SectionName) : Except SettingsError Slot :=
  match root.lookup name.key with
  | none => .ok (.fields name.defaults)
  | some (.object values) => .ok (.fields (overlay name values))
  | some value => .error (.sectionNotAnObject value)

/-- The settings that the value of a file describes. -/
def ofJson : Json → Except SettingsError Settings
  | .object root => do
    return {
      shell := ← readSection root .shell
      environment := ← readSection root .environment
      filesystem := ← readSection root .filesystem
      logging := ← readSection root .logging }
  | _ => .error .rootNotAnObject

/-- The settings that a file of the host describes. -/
def ofHostFile (name : Text) : HostFile → Except SettingsFailure Settings
  | .missing => .error (.refused (.fileMissing name))
  | .directory shown => .error (.refused (.fileIsDirectory name shown))
  | .unreadable reason => .error (.refused (.fileUnreadable name reason))
  | .undecodable crash | .unreachable crash => .error (.crash crash)
  | .text text =>
    match Json.parse text with
    | .error .malformed => .error (.refused (.invalidJson name))
    | .error (.numeral error) => .error (.crash error.crash)
    | .ok json => (ofJson json).mapError .refused

/-- What stands in the place of a section, as a value. -/
def Slot.toJson : Slot → Json
  | .fields fields => .object fields
  | .replaced value => value

/-- The settings as one value. -/
def toJson (settings : Settings) : Json :=
  .object (SectionName.all.map fun name => (name.key, Slot.toJson (settings.slot name)))

/-- The value of a field; a section that has been stored over has none. -/
def field (settings : Settings) (name : SectionName) (key : Text) : Json :=
  match settings.slot name with
  | .fields fields => (fields.lookup key).getD .null
  | .replaced _ => .null

/-- The texts that going through a value gives. -/
def textsOf (value : Json) : List Text := value.parts.map Json.display

/-- The number of lines that the history keeps. -/
def historySize (settings : Settings) : Option Int :=
  (settings.field .shell "history_size").number?

/-- The name of the host in the prompt. -/
def hostname (settings : Settings) : Text := (settings.field .shell "hostname").display

/-- The end of the prompt. -/
def promptSuffix (settings : Settings) : Text := (settings.field .shell "prompt_suffix").display

/-- What is protected: the keys of variables, and whatever else was put among them. -/
def readOnlyItems (settings : Settings) : List Json :=
  (settings.field .environment "readonly_keys").parts

/-- The keys of the variables that are protected. -/
def readOnlyKeys (settings : Settings) : List Text :=
  settings.readOnlyItems.filterMap Json.text?

/-- Whether an item does not come after another: texts and numbers have orders of their own. -/
def itemNotAfter : Json → Json → Bool
  | .string a, .string b => Text.notAfter a b
  | a, b => decide (a.number?.getD 0 ≤ b.number?.getD 0)

/-- What is protected, in order and each item once. -/
def readOnlyListing (settings : Settings) : List Json :=
  (settings.readOnlyItems.mergeSort itemNotAfter).eraseRepsBy fun a b => itemNotAfter b a

/-- The first variables of a session. -/
def firstVariables (settings : Settings) : Fields :=
  match settings.field .environment "defaults" with
  | .object fields => fields
  | _ => []

/-- The first directories of a session. -/
def standardDirectories (settings : Settings) : List Text :=
  textsOf (settings.field .filesystem "standard_dirs")

/-- The path of the null file, if there is to be one. -/
def nullDevice? (settings : Settings) : Option Text :=
  let value := settings.field .filesystem "null_device"
  if value.isTruthy then some value.display else none

/-- The name of the log level. -/
def logLevel (settings : Settings) : Text := (settings.field .logging "level").display

/-- The file that the log goes to, if there is one. -/
def logFile? (settings : Settings) : Option Text :=
  let value := settings.field .logging "log_file"
  if value.isTruthy then some value.display else none

/-- Whether the log goes to the console. -/
def logsToConsole (settings : Settings) : Bool :=
  (settings.field .logging "console_output").isTruthy

/-- How many records the log of the session keeps. -/
def maxLogEntries (settings : Settings) : Int :=
  (settings.field .logging "max_buffer_entries").number?.getD 0

end Settings

end MemShell
