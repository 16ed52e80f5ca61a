import MemShell.Settings.Nature

/-!
# The settings in use

A session has one store of settings. Loading a file and going back to the built-in settings replace
them all, but what was stored in the fields of a nature stays: it does not belong to the settings.
-/

namespace MemShell

/-- The settings in use, and whether a file was loaded. -/
structure SettingsStore where
  /-- The settings. -/
  current : Settings
  /-- Whether a file was loaded since the start. -/
  loaded : Bool
  /-- The values that were stored in the fields of natures. -/
  ofNatures : List ((Nature × Text) × Json)

/-- An operation on the settings in use. -/
abbrev SettingsOp := EStateM SettingsFailure SettingsStore

namespace SettingsStore

/-- The built-in settings, nothing loaded. -/
def start : SettingsStore := ⟨.builtIn, false, []⟩

instance : Inhabited SettingsStore := ⟨start⟩

/-- Loads a file of the host over the built-in settings. -/
def load (name : Text) (file : HostFile) : SettingsOp Unit := do
  match Settings.ofHostFile name file with
  | .error error => throw error
  | .ok settings => modify fun store => { store with current := settings, loaded := true }

/-- Goes back to the built-in settings. -/
def reset : SettingsOp Unit :=
  modify fun store => { store with current := .builtIn, loaded := false }

end SettingsStore

end MemShell
