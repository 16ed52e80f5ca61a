import MemShell.Map.Ordered
import MemShell.Json.Display

/-!
# Environments

The variables of a shell session. A read-only variable is protected from the careful setters; the
plain ones still change it, since the shell itself keeps variables of its own there.
-/

namespace MemShell

/-- Why an operation on variables fails. -/
inductive VariableError
  /-- The key holds a character that no key holds, or none at all. -/
  | invalidKey (key : Text)
  /-- A read-only variable was to be changed. -/
  | readOnly (key : Text)
  /-- A variable that is not set was read. -/
  | undefined (key : Text)
  deriving DecidableEq

/-- The variables of a session and the keys that are protected. -/
structure Environment where
  /-- The values by key. -/
  bindings : OrderedMap Text Text
  /-- The protected keys. -/
  readOnlyKeys : List Text
  deriving DecidableEq

/-- An operation on variables that may fail; what it did before it failed stays. -/
abbrev VariableOp := EStateM VariableError Environment

namespace Environment

/-- The environment without variables. -/
def empty : Environment := ⟨.empty, []⟩

instance : Inhabited Environment := ⟨empty⟩

/-- Whether a character is an ASCII letter, a digit or an underscore. -/
def isNameChar (c : Char) : Bool := c.isAlphanum || c == '_'

/-- Whether a character may stand in a key: a name character, or one of the four letters outside
ASCII that differ from one only in case. -/
def isKeyChar (c : Char) : Bool :=
  isNameChar c || c == '\u0130' || c == '\u0131' || c == '\u017f' || c == '\u212a'

/-- Whether a text may be a key. -/
def isKeyValid (key : Text) : Bool := !key.isEmpty && key.all isKeyChar

/-- The value of a variable, if it is set. -/
def get? (env : Environment) (key : Text) : Option Text := env.bindings.get? key

/-- The value of a variable, or a value to use if it is not set. -/
def getD (env : Environment) (key default : Text) : Text := (env.get? key).getD default

/-- Whether a variable is set. -/
def has (env : Environment) (key : Text) : Bool := env.bindings.contains key

/-- The value of a variable that has to be set. -/
def get (env : Environment) (key : Text) : Except VariableError Text :=
  match env.get? key with
  | some value => .ok value
  | none => .error (.undefined key)

/-- The environment without variables, the read-only ones included. -/
def clear (env : Environment) : Environment := { env with bindings := .empty }

/-- The environment with a value stored as its display text. -/
def store (env : Environment) (key : Text) (value : Json) : Environment :=
  { env with bindings := env.bindings.insert key value.display }

/-- The environment without a variable. -/
def drop (env : Environment) (key : Text) : Environment :=
  { env with bindings := env.bindings.erase key }

/-- Checks that a text may be a key. -/
def checkKey (key : Text) : VariableOp Unit :=
  if isKeyValid key then pure () else throw (.invalidKey key)

/-- Checks that a key is not protected. -/
def checkWritable (key : Text) : VariableOp Unit := do
  let env ← EStateM.get
  if key ∈ env.readOnlyKeys then throw (.readOnly key)

/-- Sets a variable, a read-only one too. -/
def set (key : Text) (value : Json) : VariableOp Unit := do
  checkKey key
  modify fun env => env.store key value

/-- Deletes a variable, a read-only one too. -/
def delete (key : Text) : VariableOp Unit := do
  checkKey key
  modify fun env => env.drop key

/-- Sets a variable unless it is read-only. -/
def safeSet (key : Text) (value : Json) : VariableOp Unit := do
  checkWritable key
  set key value

/-- Deletes a variable unless it is read-only. -/
def safeDelete (key : Text) : VariableOp Unit := do
  checkWritable key
  delete key

/-- Sets variables one after the other. -/
def load : List (Text × Json) → VariableOp Unit
  | [] => pure ()
  | (key, value) :: rest => do
    set key value
    load rest

/-- An environment with protected keys and variables set in order. -/
def create (readOnlyKeys : List Text) (values : List (Text × Json)) :
    Except VariableError Environment :=
  match (load values).run ⟨.empty, readOnlyKeys⟩ with
  | .ok _ env => .ok env
  | .error error _ => .error error

end Environment

/-- The message of a variable error. -/
def VariableError.message : VariableError → Text
  | invalidKey key =>
    "Invalid environment variable key '" ++ key ++
      "'; keys can only contain alphanumerical characters and underscores."
  | readOnly key => "Cannot modify read-only environment variable '" ++ key ++ "'."
  | undefined key => "Cannot read non-existing environment variable '" ++ key ++ "'."

end MemShell
