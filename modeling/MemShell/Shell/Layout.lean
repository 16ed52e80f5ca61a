import MemShell.Settings.Basic
import MemShell.Shell.Journal

/-!
# First file systems and first worlds

The settings name the first directories and the null device of a session, and its first variables.
The home and the current directory are made too. What is there already is left as it is.
-/

namespace MemShell

namespace FileSystem

/-- Adds a tree at a path, with the directories above it, unless something is there already. -/
def addMissing (path : Path) (tree : Tree) : FileOp Unit := do
  if !(← EStateM.get).has path then discard (add path tree true)

/-- Adds trees where nothing is yet. -/
def layOut (layout : List (Path × Tree)) : FileOp Unit :=
  layout.forM fun (path, tree) => addMissing path tree

end FileSystem

/-- The directories and the null device that the settings name. -/
def Settings.layout (settings : Settings) : List (Path × Tree) :=
  (settings.standardDirectories.map fun text => (Path.ofText text, Tree.emptyDirectory)) ++
    settings.nullDevice?.toList.map fun text => (Path.ofText text, Tree.null)

namespace Action

/-- Adds a tree at a path, with the directories above it, unless something is there already. -/
def addMissing (path : Path) (tree : Tree) : Action Mishap Unit := do
  if !(← world).files.has path then addTree path tree true

/-- Makes the first directories and the null device. -/
def layOut (settings : Settings) : Action Mishap Unit := do
  settings.layout.forM fun (path, tree) => addMissing path tree
  log (Journal.layoutMade settings.standardDirectories.length)

/-- Makes the directory that a variable names, unless something is there already. -/
def makeDirectoryOf (key : Text) : Action Mishap Unit := do
  match (← world).environment.get? key with
  | some (c :: rest) =>
    if !(← world).files.has (Path.ofText (c :: rest)) then
      addTree (Path.ofText (c :: rest ++ ['/'])) .emptyDirectory true
  | _ => return ()

/-- Sets up the world that the settings describe. -/
def setUp (settings : Settings) : Action Mishap Unit := do
  settings.firstVariables.forM fun (key, value) => setVariable Environment.set key value
  layOut settings
  makeDirectoryOf "home"
  makeDirectoryOf "cwd"

end Action

/-- The world that the settings describe. -/
def Settings.firstWorld (settings : Settings) : Except Mishap Progress :=
  match (Action.setUp settings).run (.start (.blank settings.readOnlyKeys)) with
  | .ok _ progress => .ok progress
  | .error mishap _ => .error mishap

end MemShell
