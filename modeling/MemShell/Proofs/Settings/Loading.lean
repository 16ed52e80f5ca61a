import MemShell.Fault.Causes
import MemShell.Proofs.Json.Numerals
import MemShell.Proofs.Map.Assoc
import MemShell.Settings.Lookup
import Mathlib.Order.WellFounded
import Mathlib.Tactic.Choose

/-!
# Loading settings

A file describes settings, is refused, or breaks the loading with an error that is not about
settings, and this depends on nothing but the file. Settings that are described have every field of
every section, with the value from the file or the built-in one. Main statement: after any calls,
loading a file that describes settings puts these in the place of whatever there was before, and
loading any other one changes nothing.
-/

namespace MemShell

namespace SectionName

/-- The place of a section in the order of sections. -/
def place (name : SectionName) : Nat := all.idxOf name

/-- The fields of a section have distinct keys. -/
theorem nodup_keys_defaults (name : SectionName) : (Assoc.keys name.defaults).Nodup := by
  cases name <;> decide +kernel

end SectionName

namespace Settings

/-- The value that the object of a file gives for a field, if it does. -/
def given? (root : Fields) (name : SectionName) (key : Text) : Option Json :=
  (root.lookup name.key).bind fun value => value.field? key

/-- Whether the settings have exactly the fields of every section, each with the value that an
object gives or the built-in one. -/
def IsOverlay (root : Fields) (settings : Settings) : Prop :=
  ∀ name, ∃ fields, settings.slot name = .fields fields ∧
    Assoc.keys fields = Assoc.keys name.defaults ∧
    ∀ key default, (key, default) ∈ name.defaults →
      fields.lookup key = some ((given? root name key).getD default)

/-- Whether an object says nothing about a section or has an object in its place. -/
def Fits (root : Fields) (name : SectionName) : Prop :=
  ∀ value, root.lookup name.key = some value → ∃ values, value = .object values

/-- Whether an object has something else than an object in the place of a section. -/
def Misfit (root : Fields) (name : SectionName) (value : Json) : Prop :=
  root.lookup name.key = some value ∧ ∀ values, value ≠ .object values

/-- Whether a file describes settings, by the fields of an object. -/
def Describes (file : HostFile) (root : Fields) : Prop :=
  ∃ text, file = .text text ∧ Json.parse text = .ok (.object root) ∧ ∀ name, Fits root name

/-- Why a file of a name describes no settings. -/
inductive Refused (name : Text) : HostFile → SettingsError → Prop
  /-- There is no file. -/
  | missing : Refused name .missing (.fileMissing name)
  /-- It is a directory. -/
  | directory (shown : Text) : Refused name (.directory shown) (.fileIsDirectory name shown)
  /-- It cannot be read. -/
  | unreadable (reason : Text) : Refused name (.unreadable reason) (.fileUnreadable name reason)
  /-- It holds no JSON. -/
  | notJson {text : Text} (h : Json.parse text = .error .malformed) :
    Refused name (.text text) (.invalidJson name)
  /-- It holds something else than an object. -/
  | notAnObject {text : Text} {json : Json} (h : Json.parse text = .ok json)
    (hjson : ∀ root, json ≠ .object root) : Refused name (.text text) .rootNotAnObject
  /-- The first section that does not fit is something else than an object. -/
  | sectionNotAnObject {text : Text} {root : Fields} {other : SectionName} {value : Json}
    (h : Json.parse text = .ok (.object root)) (hvalue : Misfit root other value)
    (hfirst : ∀ before, before.place < other.place → Fits root before) :
    Refused name (.text text) (.sectionNotAnObject value)

/-- With which error a file breaks the loading of settings. -/
inductive Breaks : HostFile → Crash → Prop
  /-- Its bytes are no text. -/
  | undecodable (crash : Crash) : Breaks (.undecodable crash) crash
  /-- It cannot be told whether there is a file. -/
  | unreachable (crash : Crash) : Breaks (.unreachable crash) crash
  /-- A whole number in it is not read. -/
  | numeral {text : Text} {error : NumeralError} (h : Json.parse text = .error (.numeral error)) :
    Breaks (.text text) error.crash

/-! ## Sections -/

/-- The fields of a section stay the same when values are laid over them. -/
theorem keys_overlay (name : SectionName) (values : Fields) :
    Assoc.keys (overlay name values) = Assoc.keys name.defaults :=
  Assoc.keys_map (fun entry => (values.lookup entry.1).getD entry.2) name.defaults

/-- A field has the value that is laid over it, or else the built-in one. -/
theorem lookup_overlay {name : SectionName} {key : Text} {default : Json}
    (h : (key, default) ∈ name.defaults) (values : Fields) :
    (overlay name values).lookup key = some ((values.lookup key).getD default) := by
  have hnodup : (Assoc.keys (overlay name values)).Nodup := by
    rw [keys_overlay]
    exact name.nodup_keys_defaults
  exact (Assoc.lookup_eq_some_iff hnodup).2 (List.mem_map.2 ⟨_, h, rfl⟩)

/-- Without values the fields are the built-in ones. -/
theorem overlay_nil (name : SectionName) : overlay name [] = name.defaults :=
  (List.map_congr_left fun _ _ => rfl).trans (List.map_id name.defaults)

/-- A section that fits is read as its fields, with the values of the object laid over them. -/
theorem readSection_of_fits {root : Fields} {name : SectionName} (h : Fits root name) :
    ∃ values, readSection root name = .ok (.fields (overlay name values)) ∧
      ∀ key, values.lookup key = given? root name key := by
  rw [readSection]
  cases hroot : root.lookup name.key with
  | none =>
    refine ⟨[], by rw [overlay_nil], fun key => ?_⟩
    rw [given?, hroot]
    rfl
  | some value =>
    obtain ⟨values, rfl⟩ := h value hroot
    refine ⟨values, rfl, fun key => ?_⟩
    rw [given?, hroot]
    rfl

/-- A section that does not fit has something else than an object in its place. -/
theorem not_fits_iff {root : Fields} {name : SectionName} :
    ¬Fits root name ↔ ∃ value, Misfit root name value := by
  simp [Fits, Misfit]

/-- It is refused for the value in its place. -/
theorem readSection_of_misfit {root : Fields} {name : SectionName} {value : Json}
    (h : Misfit root name value) :
    readSection root name = .error (.sectionNotAnObject value) := by
  rw [readSection, h.1]
  cases value with
  | object values => exact absurd rfl (h.2 values)
  | _ => rfl

/-! ## Files -/

/-- An object that fits everywhere is read as the built-in settings with its values over them. -/
theorem ofJson_of_fits {root : Fields} (h : ∀ name, Fits root name) :
    ∃ settings : Settings, ofJson (.object root) = .ok settings ∧ IsOverlay root settings := by
  choose values hread hgiven using fun name => readSection_of_fits (h name)
  refine ⟨⟨.fields (overlay .shell (values .shell)),
    .fields (overlay .environment (values .environment)),
    .fields (overlay .filesystem (values .filesystem)),
    .fields (overlay .logging (values .logging))⟩, ?_, fun name => ?_⟩
  · simp only [ofJson, hread]
    rfl
  · refine ⟨overlay name (values name), by cases name <;> rfl, keys_overlay name _, ?_⟩
    intro key default hkey
    rw [lookup_overlay hkey, hgiven]

/-- An object that does not fit everywhere is refused for the first section where it does not. -/
theorem ofJson_of_misfit {root : Fields} {other : SectionName} {value : Json}
    (hvalue : Misfit root other value)
    (hfirst : ∀ before, before.place < other.place → Fits root before) :
    ofJson (.object root) = .error (.sectionNotAnObject value) := by
  have herror := readSection_of_misfit hvalue
  have hread : ∀ before, before.place < other.place →
      ∃ slot, readSection root before = .ok slot := fun before hbefore =>
    have ⟨_, hslot, _⟩ := readSection_of_fits (hfirst before hbefore)
    ⟨_, hslot⟩
  -- the sections are read one after another, so each case has one more that was read before
  cases other with
  | shell =>
    simp only [ofJson, herror]
    rfl
  | environment =>
    obtain ⟨_, hshell⟩ := hread .shell (by decide)
    simp only [ofJson, hshell, herror]
    rfl
  | filesystem =>
    obtain ⟨_, hshell⟩ := hread .shell (by decide)
    obtain ⟨_, henvironment⟩ := hread .environment (by decide)
    simp only [ofJson, hshell, henvironment, herror]
    rfl
  | logging =>
    obtain ⟨_, hshell⟩ := hread .shell (by decide)
    obtain ⟨_, henvironment⟩ := hread .environment (by decide)
    obtain ⟨_, hfilesystem⟩ := hread .filesystem (by decide)
    simp only [ofJson, hshell, henvironment, hfilesystem, herror]
    rfl

/-- Where an object does not fit everywhere there is a first section where it does not. -/
theorem exists_first_misfit {root : Fields} (h : ¬∀ name, Fits root name) :
    ∃ other value, Misfit root other value ∧
      ∀ before, before.place < other.place → Fits root before := by
  obtain ⟨other, hother, hleast⟩ :=
    (measure SectionName.place).wf.has_min { name | ¬Fits root name } (not_forall.1 h)
  obtain ⟨value, hvalue⟩ := not_fits_iff.1 hother
  refine ⟨other, value, hvalue, fun before hbefore => ?_⟩
  by_contra hnot
  exact hleast before hnot hbefore

/-- An object that fits everywhere is read, and any other one is refused for the first section where
it does not fit. -/
theorem ofJson_cases (root : Fields) :
    (∃ other value, Misfit root other value ∧
      (∀ before, before.place < other.place → Fits root before) ∧
      ofJson (.object root) = .error (.sectionNotAnObject value)) ∨
    (∀ name, Fits root name) ∧ ∃ settings : Settings, settings.IsOverlay root ∧
      ofJson (.object root) = .ok settings := by
  by_cases hfits : ∀ name, Fits root name
  · obtain ⟨settings, hread, hoverlay⟩ := ofJson_of_fits hfits
    exact .inr ⟨hfits, settings, hoverlay, hread⟩
  · obtain ⟨other, value, hvalue, hfirst⟩ := exists_first_misfit hfits
    exact .inl ⟨other, value, hvalue, hfirst, ofJson_of_misfit hvalue hfirst⟩

/-- A text from which a value is read is read as this value is. -/
theorem ofHostFile_of_parse {text : Text} {json : Json} (h : Json.parse text = .ok json)
    (name : Text) : ofHostFile name (.text text) = (ofJson json).mapError .refused := by
  rw [ofHostFile, h]

/-- A file is refused, or it breaks the loading, or it describes settings and these are read from
it. -/
theorem ofHostFile_cases (name : Text) (file : HostFile) :
    (∃ error, Refused name file error ∧ ofHostFile name file = .error (.refused error)) ∨
      (∃ crash, Breaks file crash ∧ ofHostFile name file = .error (.crash crash)) ∨
      ∃ root settings, Describes file root ∧ IsOverlay root settings ∧
        ofHostFile name file = .ok settings := by
  cases file with
  | missing => exact .inl ⟨_, .missing, rfl⟩
  | directory shown => exact .inl ⟨_, .directory shown, rfl⟩
  | unreadable reason => exact .inl ⟨_, .unreadable reason, rfl⟩
  | undecodable crash => exact .inr (.inl ⟨_, .undecodable crash, rfl⟩)
  | unreachable crash => exact .inr (.inl ⟨_, .unreachable crash, rfl⟩)
  | text text =>
    cases hjson : Json.parse text with
    | error error =>
      cases error with
      | malformed => exact .inl ⟨_, .notJson hjson, by rw [ofHostFile, hjson]⟩
      | numeral error => exact .inr (.inl ⟨_, .numeral hjson, by rw [ofHostFile, hjson]⟩)
    | ok json =>
      rw [ofHostFile_of_parse hjson]
      cases json with
      | object root =>
        rcases ofJson_cases root with ⟨other, value, hvalue, hfirst, hread⟩ |
          ⟨hfits, settings, hoverlay, hread⟩
        · exact .inl ⟨_, .sectionNotAnObject hjson hvalue hfirst, by rw [hread]; rfl⟩
        · exact .inr (.inr
            ⟨root, settings, ⟨text, rfl, hjson, hfits⟩, hoverlay, by rw [hread]; rfl⟩)
      | _ => exact .inl ⟨_, .notAnObject hjson nofun, rfl⟩

/-- A text breaks the loading only with a run of digits that is too long to be read. -/
theorem Breaks.hasLongRun {text : Text} {crash : Crash} (h : Breaks (.text text) crash) :
    Text.HasLongRun text := by
  cases h with
  | numeral h => exact Json.hasLongRun_of_parse h

end Settings

/-- A call that may change the settings in use. A file is loaded again as it is loaded. -/
inductive SettingsCall
  /-- Loads a file of the host. -/
  | load (name : Text) (file : HostFile)
  /-- Goes back to the built-in settings. -/
  | reset
  /-- Stores a value under a key. -/
  | put (key : Text) (value : Json)

/-- The operation that is called. -/
def SettingsCall.op : SettingsCall → SettingsOp Unit
  | load name file => SettingsStore.load name file
  | reset => SettingsStore.reset
  | put key value => SettingsStore.put key value

namespace SettingsStore

/-- The store after a call, refused or not. -/
def after (store : SettingsStore) (call : SettingsCall) : SettingsStore :=
  match call.op.run store with
  | .ok _ store => store
  | .error _ store => store

/-- The store that calls lead to from the start. -/
def reached (calls : List SettingsCall) : SettingsStore := calls.foldl after start

/-- Loading puts what is read from the file in the place of the settings, or is refused. -/
theorem run_load (name : Text) (file : HostFile) (store : SettingsStore) :
    (load name file).run store =
      match Settings.ofHostFile name file with
      | .error error => .error error store
      | .ok settings => .ok () { store with current := settings, loaded := true } := by
  rw [load]
  cases Settings.ofHostFile name file <;> rfl

/-- Whatever was called before, a file that is refused for its own fault changes nothing at all, nor
does one that breaks the loading, which a text does only with a run of digits that is too long. A
file that describes settings puts these in the place of the others: they have every field of every
section, with the value from the file or the built-in one, and the store counts as loaded. -/
theorem load_atomic (name : Text) (file : HostFile) :
    (∃ error, Settings.Refused name file error ∧ error.fault.kind = .configuration ∧
      ∀ calls, (load name file).run (reached calls) =
        .error (.refused error) (reached calls)) ∨
    (∃ crash, Settings.Breaks file crash ∧ (∀ text, file = .text text → text.HasLongRun) ∧
      ∀ calls, (load name file).run (reached calls) = .error (.crash crash) (reached calls)) ∨
    ∃ root settings, Settings.Describes file root ∧ settings.IsOverlay root ∧
      ∀ calls, (load name file).run (reached calls) =
        .ok () { reached calls with current := settings, loaded := true } := by
  rcases Settings.ofHostFile_cases name file with ⟨error, hrefused, hread⟩ |
    ⟨crash, hbreaks, hread⟩ | ⟨root, settings, hdescribes, hoverlay, hread⟩
  · refine .inl ⟨error, hrefused, rfl, fun calls => ?_⟩
    rw [run_load, hread]
  · refine .inr (.inl ⟨crash, hbreaks, fun text htext => ?_, fun calls => ?_⟩)
    · exact (htext ▸ hbreaks).hasLongRun
    · rw [run_load, hread]
  · refine .inr (.inr ⟨root, settings, hdescribes, hoverlay, fun calls => ?_⟩)
    rw [run_load, hread]

/-- The text of a file with a number of 4301 digits, for a field that no section has. -/
def longNumber : Text := "\x7b\"x\": ".toList ++ List.replicate 4301 '1' ++ "\x7d".toList

/-- Such a file says nothing about any section, and loading it fails with an error that is not about
settings. -/
theorem longNumber_breaks :
    (load "a.json".toList (.text longNumber)).run start =
      .error (.crash (NumeralError.tooLong 4301).crash) start := by
  have hparse : Json.parse longNumber = .error (.numeral (.tooLong 4301)) := by
    have h : (match Json.parse longNumber with
        | .error error => decide (error = .numeral (.tooLong 4301))
        | .ok _ => false) = true := by decide +kernel
    split at h
    · next error herror => rw [herror, of_decide_eq_true h]
    · cases h
  rw [run_load, Settings.ofHostFile, hparse]

end SettingsStore

end MemShell
