import MemShell.Proofs.Json.Equality
import MemShell.Proofs.Settings.Storing

/-!
# Saving settings

What is saved of the settings is loaded as the same settings as long as every section is there with
exactly its fields. A value that has been stored over a section is saved in its place, and loading
refuses it or lays it over the built-in fields. Main statement: after any calls, the saved settings
load back to what was saved if and only if they have all sections with exactly their fields, and
that is so if no call was for storing over a section.
-/

namespace MemShell

namespace Json

/-- Values that are the same up to the order of the fields in objects. -/
inductive Alike : Json → Json → Prop
  /-- The same values. -/
  | same (json : Json) : Alike json json
  /-- Objects with the same keys in some order and such values under them. -/
  | object {a b : Fields} (hkeys : (Assoc.keys a).Perm (Assoc.keys b))
    (hvalues : ∀ key x y, a.lookup key = some x → b.lookup key = some y → Alike x y) :
    Alike (.object a) (.object b)

/-- Objects that are alike have the same keys. -/
theorem Alike.keys_perm {a b : Fields} (h : Alike (.object a) (.object b)) :
    (Assoc.keys a).Perm (Assoc.keys b) := by
  cases h with
  | same => exact .refl _
  | object hkeys hvalues => exact hkeys

/-- The values under a key of objects that are alike are alike. -/
theorem Alike.lookup {a b : Fields} (h : Alike (.object a) (.object b)) {key : Text} {x y : Json}
    (hx : a.lookup key = some x) (hy : b.lookup key = some y) : Alike x y := by
  cases h with
  | same =>
    rw [hx] at hy
    cases hy
    exact .same x
  | object hkeys hvalues => exact hvalues key x y hx hy

/-- Whether a value is an object with the four sections, each an object with exactly its fields in
some order. -/
def HasSections (json : Json) : Prop :=
  ∃ sections, json = .object sections ∧
    Assoc.keys sections = SectionName.all.map SectionName.key ∧
    ∀ name : SectionName, ∃ fields, sections.lookup name.key = some (.object fields) ∧
      (Assoc.keys fields).Perm (Assoc.keys name.defaults)

end Json

namespace Settings

/-! ## What is saved -/

/-- The sections as they are saved. -/
def saved (settings : Settings) : Fields :=
  SectionName.all.map fun name => (name.key, Slot.toJson (settings.slot name))

/-- A section is saved as what stands in its place. -/
theorem lookup_saved (settings : Settings) (name : SectionName) :
    settings.saved.lookup name.key = some (Slot.toJson (settings.slot name)) := by
  cases name <;> rfl

/-- Nothing but sections is saved. -/
theorem exists_of_lookup_saved {settings : Settings} {key : Text} {value : Json}
    (h : settings.saved.lookup key = some value) :
    ∃ name : SectionName, key = name.key ∧ value = Slot.toJson (settings.slot name) := by
  obtain ⟨name, -, hentry⟩ := List.mem_map.1 (Assoc.mem_of_lookup h)
  cases hentry
  exact ⟨name, rfl, rfl⟩

/-- The saved settings have all sections if every one is saved as an object of its fields. -/
theorem hasSections_iff {settings : Settings} : settings.toJson.HasSections ↔
    ∀ name, ∃ fields, Slot.toJson (settings.slot name) = .object fields ∧
      (Assoc.keys fields).Perm (Assoc.keys name.defaults) := by
  constructor
  · rintro ⟨sections, heq, -, hsections⟩ name
    obtain rfl : settings.saved = sections := Json.object.inj heq
    obtain ⟨fields, hfields, hkeys⟩ := hsections name
    rw [lookup_saved] at hfields
    exact ⟨fields, Option.some.inj hfields, hkeys⟩
  · intro h
    refine ⟨settings.saved, rfl, rfl, fun name => ?_⟩
    obtain ⟨fields, hfields, hkeys⟩ := h name
    exact ⟨fields, by rw [lookup_saved, hfields], hkeys⟩

/-- Settings with all sections are saved with all sections. -/
theorem IsComplete.hasSections {settings : Settings} (h : settings.IsComplete) :
    settings.toJson.HasSections := by
  refine hasSections_iff.2 fun name => ?_
  obtain ⟨fields, hslot, hkeys⟩ := h name
  exact ⟨fields, congrArg Slot.toJson hslot, hkeys ▸ .refl _⟩

/-! ## What is loaded back -/

section Loaded

variable {settings loaded : Settings} {name : SectionName}

/-- What is saved of a section fits if it is an object. -/
theorem fits_saved_iff :
    Fits settings.saved name ↔ ∃ values, Slot.toJson (settings.slot name) = .object values := by
  rw [Fits, lookup_saved]
  exact ⟨fun h => h _ rfl, fun h value heq => Option.some.inj heq ▸ h⟩

/-- Where an object was saved the loaded section has its values. -/
theorem IsOverlay.exists_fields (h : loaded.IsOverlay settings.saved) {values : Fields}
    (hvalues : Slot.toJson (settings.slot name) = .object values) :
    ∃ fields, loaded.slot name = .fields fields ∧
      Assoc.keys fields = Assoc.keys name.defaults ∧
      ∀ key value, key ∈ Assoc.keys name.defaults → values.lookup key = some value →
        fields.lookup key = some value := by
  obtain ⟨fields, hslot, hkeys, hlookup⟩ := h name
  refine ⟨fields, hslot, hkeys, fun key value hkey hvalue => ?_⟩
  obtain ⟨⟨other, default⟩, hmem, hother⟩ := List.mem_map.1 hkey
  obtain rfl : other = key := hother
  rw [hlookup _ default hmem, given?, lookup_saved, hvalues]
  exact congrArg some (by rw [Option.bind_some, Json.field?, hvalue, Option.getD_some])

/-- What was saved with all sections is loaded as what was saved. -/
theorem IsOverlay.alike (h : loaded.IsOverlay settings.saved)
    (hsections : settings.toJson.HasSections) : loaded.toJson.Alike settings.toJson := by
  refine .object (.refl _) fun key x y hx hy => ?_
  obtain ⟨name, rfl, rfl⟩ := exists_of_lookup_saved hy
  obtain rfl : Slot.toJson (loaded.slot name) = x :=
    Option.some.inj ((lookup_saved loaded name).symm.trans hx)
  obtain ⟨values, hvalues, hperm⟩ := hasSections_iff.1 hsections name
  obtain ⟨fields, hslot, hkeys, hlookup⟩ := h.exists_fields hvalues
  rw [hslot, hvalues]
  refine .object (hkeys ▸ hperm.symm) fun key x y hx hy => ?_
  have hkey : key ∈ Assoc.keys name.defaults := hkeys ▸ Assoc.mem_keys_of_lookup hx
  obtain rfl : y = x := Option.some.inj ((hlookup key y hkey hy).symm.trans hx)
  exact .same y

/-- What is loaded as what was saved was saved with all sections. -/
theorem IsOverlay.hasSections (h : loaded.IsOverlay settings.saved)
    (hfits : ∀ name, Fits settings.saved name) (halike : loaded.toJson.Alike settings.toJson) :
    settings.toJson.HasSections := by
  refine hasSections_iff.2 fun name => ?_
  obtain ⟨values, hvalues⟩ := fits_saved_iff.1 (hfits name)
  obtain ⟨fields, hslot, hkeys, -⟩ := h.exists_fields hvalues
  have hsection := halike.lookup (lookup_saved loaded name) (lookup_saved settings name)
  rw [hslot, hvalues] at hsection
  exact ⟨values, hvalues, hkeys ▸ hsection.keys_perm.symm⟩

/-- Settings with all sections are loaded as they are. -/
theorem IsOverlay.eq_of_isComplete (h : loaded.IsOverlay settings.saved)
    (hcomplete : settings.IsComplete) : loaded = settings := by
  refine eq_of_slot fun name => ?_
  obtain ⟨values, hsaved, hkeys⟩ := hcomplete name
  obtain ⟨fields, hslot, hfields, hlookup⟩ := h.exists_fields (congrArg Slot.toJson hsaved)
  rw [hslot, hsaved]
  have hnodup : (Assoc.keys fields).Nodup := hfields ▸ name.nodup_keys_defaults
  refine congrArg Slot.fields (Assoc.eq_of_lookup (hfields.trans hkeys.symm) hnodup fun key => ?_)
  cases hvalue : values.lookup key with
  | none =>
    rw [Assoc.lookup_eq_none_iff] at hvalue ⊢
    rwa [hfields, ← hkeys]
  | some value => exact hlookup key value (hkeys ▸ Assoc.mem_keys_of_lookup hvalue) hvalue

end Loaded

end Settings

namespace SettingsStore

/-- After any calls, what is saved has all sections with exactly their fields if whatever was stored
over a section is an object of its fields. -/
theorem hasSections_reached_iff (calls : List SettingsCall) :
    (reached calls).current.toJson.HasSections ↔
      ∀ name value, (reached calls).current.slot name = .replaced value →
        ∃ fields, value = .object fields ∧ (Assoc.keys fields).Perm (Assoc.keys name.defaults) := by
  rw [Settings.hasSections_iff]
  refine forall_congr' fun name => ?_
  cases hslot : (reached calls).current.slot name with
  | fields fields =>
    have hkeys := keepsFields_reached calls name fields hslot
    exact iff_of_true ⟨fields, rfl, hkeys ▸ .refl _⟩ nofun
  | replaced value =>
    exact ⟨fun h _ heq => Slot.replaced.inj heq ▸ h, fun h => h value rfl⟩

/-- After any calls, take a file whose text is read as what is saved of the settings. It is loaded,
and what is saved then is the same up to the order of fields, exactly if what is saved has all
sections with exactly their fields. This is so if no call was for storing a value over a section,
and then nothing at all changes by loading, but that the store counts as loaded. -/
theorem saved_loadsBack_iff (calls : List SettingsCall) {text : Text}
    (h : Json.parse? text = some (reached calls).current.toJson) (name : Text) :
    ((∃ after, (load name (.text text)).run (reached calls) = .ok () after ∧
        after.current.toJson.Alike (reached calls).current.toJson) ↔
      (reached calls).current.toJson.HasSections) ∧
    ((∀ front call, front ++ [call] <+: calls → ¬(reached front).Replaces call) →
      (reached calls).current.toJson.HasSections ∧
        (load name (.text text)).run (reached calls) =
          .ok () { reached calls with loaded := true }) := by
  have hread : Settings.ofHostFile name (.text text) =
      (Settings.ofJson (.object (reached calls).current.saved)).mapError .refused :=
    Settings.ofHostFile_of_parse (Json.parse?_eq_some_iff.1 h) name
  have hload : (∀ name, Settings.Fits (reached calls).current.saved name) →
      ∃ loaded : Settings, loaded.IsOverlay (reached calls).current.saved ∧
        (load name (.text text)).run (reached calls) =
          .ok () { reached calls with current := loaded, loaded := true } := by
    intro hfits
    obtain ⟨loaded, hjson, hoverlay⟩ := Settings.ofJson_of_fits hfits
    exact ⟨loaded, hoverlay, by rw [run_load, hread, hjson]; rfl⟩
  have hfits : (reached calls).current.toJson.HasSections →
      ∀ name, Settings.Fits (reached calls).current.saved name := fun hsections name =>
    have ⟨values, hvalues, _⟩ := Settings.hasSections_iff.1 hsections name
    Settings.fits_saved_iff.2 ⟨values, hvalues⟩
  refine ⟨⟨fun ⟨after, hrun, halike⟩ => ?_, fun hsections => ?_⟩, fun hcalls => ?_⟩
  · rw [run_load, hread] at hrun
    rcases Settings.ofJson_cases (reached calls).current.saved with ⟨other, value, -, -, hjson⟩ |
      ⟨hall, loaded, hoverlay, hjson⟩
    · rw [hjson] at hrun
      cases hrun
    · rw [hjson] at hrun
      cases hrun
      exact hoverlay.hasSections hall halike
  · obtain ⟨loaded, hoverlay, hrun⟩ := hload (hfits hsections)
    exact ⟨_, hrun, hoverlay.alike hsections⟩
  · have hcomplete := isComplete_reached hcalls
    have hsections := hcomplete.hasSections
    obtain ⟨loaded, hoverlay, hrun⟩ := hload (hfits hsections)
    rw [hoverlay.eq_of_isComplete hcomplete] at hrun
    exact ⟨hsections, hrun⟩

/-- A call for another name of the host. -/
def boxNamed : SettingsCall := .put "shell.hostname".toList (.string "box".toList)

/-- A call that stores a number over a section. -/
def storingOver : SettingsCall := .put "shell".toList (.int 5)

/-- The text that is written for the settings in use. -/
def savedText (store : SettingsStore) : Text := Json.write .spaced store.current.toJson

theorem saved_loadsBack_iff_renamed :
    Json.parse? (savedText (reached [boxNamed])) = some (reached [boxNamed]).current.toJson ∧
      (∀ front call, front ++ [call] <+: [boxNamed] → ¬(reached front).Replaces call) ∧
      (reached [boxNamed]).current.field .shell "hostname".toList = .string "box".toList ∧
      (reached [boxNamed]).current.toJson.HasSections ∧
      (load "saved.json".toList (.text (savedText (reached [boxNamed])))).run (reached [boxNamed]) =
        .ok () { reached [boxNamed] with loaded := true } := by
  have hparse : Json.parse? (savedText (reached [boxNamed])) =
      some (reached [boxNamed]).current.toJson := by decide +kernel
  have hcalls : ∀ front call, front ++ [call] <+: [boxNamed] →
      ¬(reached front).Replaces call := by
    intro front call hfront
    obtain ⟨rfl, rfl⟩ : front = [] ∧ call = boxNamed := by
      cases front with
      | nil => simpa using hfront
      | cons first front => simpa using hfront.length_le
    rintro ⟨-, hname⟩
    exact absurd hname (by decide +kernel)
  obtain ⟨-, hloaded⟩ := saved_loadsBack_iff [boxNamed] hparse "saved.json".toList
  exact ⟨hparse, hcalls, by decide +kernel, hloaded hcalls⟩

/-- A number may be stored over a section, and what is saved then is refused for it. -/
theorem storedOver_refused :
    storingOver.op.run start = .ok () (reached [storingOver]) ∧
      Json.parse? (savedText (reached [storingOver])) =
        some (reached [storingOver]).current.toJson ∧
      ¬(reached [storingOver]).current.toJson.HasSections ∧
      (load "saved.json".toList (.text (savedText (reached [storingOver])))).run
        (reached [storingOver]) =
          .error (.refused (.sectionNotAnObject (.int 5))) (reached [storingOver]) := by
  have hparse : Json.parse? (savedText (reached [storingOver])) =
      some (reached [storingOver]).current.toJson := by decide +kernel
  refine ⟨rfl, hparse, fun hsections => ?_, ?_⟩
  · obtain ⟨fields, hfields, -⟩ := Settings.hasSections_iff.1 hsections .shell
    cases hfields
  · rw [run_load, Settings.ofHostFile_of_parse (Json.parse?_eq_some_iff.1 hparse)]
    rfl

end SettingsStore

end MemShell
