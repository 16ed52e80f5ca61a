import MemShell.Proofs.Settings.Loading
import Mathlib.Data.List.Induction

/-!
# Storing settings

A value is stored in the place of a section, in a field of a section, or with a nature. A field that
is stored in is there already, so a section keeps its fields, however roundabout the way is on which
the section is met. Main statements: after any calls, what has not been replaced as a whole has
exactly the fields of its section, and only a call whose key leads to all settings replaces
anything.
-/

namespace MemShell

namespace Settings

/-- Whether every section that has not been replaced has its fields. -/
def KeepsFields (settings : Settings) : Prop :=
  ∀ name fields, settings.slot name = .fields fields →
    Assoc.keys fields = Assoc.keys name.defaults

/-- Whether there are all sections, with their fields. -/
def IsComplete (settings : Settings) : Prop :=
  ∀ name, ∃ fields, settings.slot name = .fields fields ∧
    Assoc.keys fields = Assoc.keys name.defaults

/-- Settings with all sections have the fields of what has not been replaced. -/
theorem IsComplete.keepsFields {settings : Settings} (h : settings.IsComplete) :
    settings.KeepsFields := by
  intro name fields hslot
  obtain ⟨others, hothers, hkeys⟩ := h name
  rw [hothers] at hslot
  cases hslot
  exact hkeys

/-- The built-in settings have all sections. -/
theorem isComplete_builtIn : builtIn.IsComplete := by
  rintro (_ | _ | _ | _) <;> exact ⟨_, rfl, rfl⟩

/-- So have those that values of a file are laid over. -/
theorem IsOverlay.isComplete {root : Fields} {settings : Settings} (h : settings.IsOverlay root) :
    settings.IsComplete := fun name =>
  have ⟨fields, hslot, hkeys, _⟩ := h name
  ⟨fields, hslot, hkeys⟩

/-- Settings with the same in the place of every section are the same. -/
theorem eq_of_slot {settings others : Settings}
    (h : ∀ name, settings.slot name = others.slot name) : settings = others := by
  obtain ⟨shell, environment, filesystem, logging⟩ := settings
  obtain ⟨_, _, _, _⟩ := others
  cases h .shell
  cases h .environment
  cases h .filesystem
  cases h .logging
  rfl

/-- What is put in the place of a section stands there, and nothing else changes. -/
theorem slot_setSlot (settings : Settings) (name other : SectionName) (slot : Slot) :
    (settings.setSlot name slot).slot other =
      if other = name then slot else settings.slot other := by
  cases name <;> cases other <;> rfl

/-- A section may be given other values of its fields. -/
theorem IsComplete.setSlot {settings : Settings} (h : settings.IsComplete) {name : SectionName}
    {fields : Fields} (hkeys : Assoc.keys fields = Assoc.keys name.defaults) :
    (settings.setSlot name (.fields fields)).IsComplete := by
  intro other
  rw [slot_setSlot]
  split
  · next heq => exact ⟨fields, rfl, heq ▸ hkeys⟩
  · exact h other

/-- So may one of settings where another one is replaced, or be replaced itself. -/
theorem KeepsFields.setSlot {settings : Settings} (h : settings.KeepsFields) {name : SectionName}
    {slot : Slot} (hslot : ∀ fields, slot = .fields fields →
      Assoc.keys fields = Assoc.keys name.defaults) : (settings.setSlot name slot).KeepsFields := by
  intro other fields hother
  rw [slot_setSlot] at hother
  split at hother
  · next heq => exact heq ▸ hslot fields hother
  · exact h other fields hother

end Settings

/-- Whether the sections at a spot have their fields. -/
def Spot.KeepsFields : Spot → Prop
  | .wholeSection name fields => Assoc.keys fields = Assoc.keys name.defaults
  | .bound _ subject => subject.KeepsFields
  | _ => True

/-! ## Ways through the settings -/

namespace Spot

variable {store : SettingsStore} {next : Spot} {name : Text}

/-- What is found among spots that keep their fields does so too. -/
theorem KeepsFields.of_lookup {parts : List (Text × Spot)}
    (h : ∀ part ∈ parts, part.2.KeepsFields) (hnext : parts.lookup name = some next) :
    next.KeepsFields := h _ (Assoc.mem_of_lookup hnext)

/-- The built-in values that a nature gives are no sections. -/
theorem keepsFields_givenValues (own : Nature) : (givenValues own).KeepsFields := by
  rw [givenValues]
  split <;> trivial

/-- What stands in the place of a section has its fields where they are kept. -/
theorem keepsFields_ofSlot {settings : Settings} (h : settings.KeepsFields) (key : SectionName) :
    (ofSlot key (settings.slot key)).KeepsFields := by
  cases hslot : settings.slot key with
  | fields fields => exact h key fields hslot
  | replaced value => trivial

/-- The parts of an operation that was written for its nature are no sections. -/
theorem keepsFields_writtenParts (op : Operation) :
    ∀ part ∈ writtenParts op, part.2.KeepsFields := by
  refine List.forall_mem_cons.2 ⟨?_, List.forall_mem_singleton.2 trivial⟩
  change KeepsFields (if _ then _ else _)
  split
  · exact keepsFields_givenValues op.holder
  · trivial

/-- Nor are those of any operation. -/
theorem keepsFields_operationParts (op : Operation) :
    ∀ part ∈ operationParts op, part.2.KeepsFields := by
  have hhome : ∀ part ∈ (op.home?.map fun home => ("__module__".toList, value home)).toList,
      part.2.KeepsFields := by
    cases op.home? <;> simp [KeepsFields]
  have hholder : ∀ part ∈ (if op.tellsHolder then [("__objclass__".toList, nature op.holder)]
      else []), part.2.KeepsFields := by
    split <;> simp [KeepsFields]
  simp only [operationParts, List.forall_mem_append]
  refine ⟨⟨⟨by simp [KeepsFields], hhome⟩, hholder⟩, ?_⟩
  split
  · exact keepsFields_writtenParts op
  · exact keepsFields_writtenParts op
  · simp

/-- An operation at a subject leads back to the subject. -/
theorem keepsFields_boundParts (op : Operation) {subject : Spot} (h : subject.KeepsFields) :
    ∀ part ∈ boundParts op subject, part.2.KeepsFields := by
  refine List.forall_mem_cons.2 ⟨h, ?_⟩
  split
  · exact List.forall_mem_cons.2 ⟨trivial, keepsFields_operationParts op⟩
  · exact keepsFields_operationParts op

/-- What a nature tells of every member is no section. -/
theorem keepsFields_sharedParts (own : Nature) :
    ∀ part ∈ sharedParts own, part.2.KeepsFields := by
  cases own with
  | settings | sectionOf =>
    refine List.forall_mem_append.2 ⟨fun part hpart => ?_, by simp [KeepsFields]⟩
    obtain ⟨constant, -, rfl⟩ := List.mem_map.1 hpart
    trivial
  | _ => simp [sharedParts, KeepsFields]

/-- A nature has no sections as its own parts. -/
theorem keepsFields_natureParts (own : Nature) :
    ∀ part ∈ natureParts own, part.2.KeepsFields := by
  have hbase : ((own.lineage.tail.head?.map nature).getD (value .null)).KeepsFields := by
    cases own.lineage.tail.head? <;> trivial
  have hbases : (if own = .anything then row [] else member .row).KeepsFields := by
    split <;> trivial
  simp only [natureParts, List.forall_mem_cons]
  exact ⟨trivial, trivial, trivial, hbase, hbases, trivial, List.forall_mem_nil _⟩

/-- An operation is met at the subject that it is asked of, if at any. -/
theorem keepsFields_ofOperation (operation : Text) (definer own : Nature) {subject? : Option Spot}
    (h : ∀ subject ∈ subject?, subject.KeepsFields) (source : OperationSource) :
    (ofOperation operation definer own subject? source).KeepsFields := by
  cases subject? with
  | none => cases source <;> trivial
  | some subject =>
    have hsubject : subject.KeepsFields := h subject rfl
    cases source with
    | ordinary =>
      -- only here is the form not enough: at a nature the operation is one of that nature
      cases subject with
      | nature => trivial
      | _ => exact hsubject
    | basic | written => exact hsubject
    | onNature | maker | free | reader | slotReader => trivial

/-- What comes by a nature keeps the fields of the sections that it is met at. -/
theorem keepsFields_byNature {own : Nature} {subject? : Option Spot}
    (h : ∀ subject ∈ subject?, subject.KeepsFields)
    (hnext : byNature? store own subject? name = some next) : next.KeepsFields := by
  obtain ⟨definer, -, hfound⟩ := List.exists_of_findSome?_eq_some hnext
  rcases (Option.orElse_eq_some _ _ _).1 hfound with hstored | ⟨-, htold⟩
  · obtain ⟨json, -, rfl⟩ := Option.map_eq_some_iff.1 hstored
    trivial
  rcases (Option.orElse_eq_some _ _ _).1 htold with hshared | ⟨-, hoperation⟩
  · exact KeepsFields.of_lookup (keepsFields_sharedParts definer) hshared
  · obtain ⟨source, -, rfl⟩ := Option.map_eq_some_iff.1 hoperation
    exact keepsFields_ofOperation name definer own h source

/-- What a spot has of its own keeps the fields of the sections that it leads to. -/
theorem keepsFields_ownPart {spot : Spot} (hstore : store.current.KeepsFields)
    (h : spot.KeepsFields) (hnext : spot.ownPart? store name = some next) : next.KeepsFields := by
  cases spot with
  | all =>
    rw [ownPart?] at hnext
    split at hnext
    · next key _ =>
      cases hnext
      exact keepsFields_ofSlot hstore key
    · exact KeepsFields.of_lookup (by simp [KeepsFields]) hnext
  | wholeSection key fields =>
    rcases (Option.orElse_eq_some _ _ _).1 hnext with hfield | ⟨-, hmember⟩
    · obtain ⟨json, -, rfl⟩ := Option.map_eq_some_iff.1 hfield
      trivial
    · exact KeepsFields.of_lookup (by simp [KeepsFields]) hmember
  | value json =>
    obtain ⟨part, -, rfl⟩ := Option.map_eq_some_iff.1 hnext
    trivial
  | row items => cases hnext
  | nature own =>
    rcases (Option.orElse_eq_some _ _ _).1 hnext with hown | ⟨-, hshared⟩
    · exact KeepsFields.of_lookup (keepsFields_natureParts own) hown
    · exact keepsFields_byNature (by simp) hshared
  | member own =>
    cases own with
    | choices =>
      obtain ⟨choice, -, rfl⟩ := Option.map_eq_some_iff.1 hnext
      trivial
    | _ => cases hnext
  | operation op => exact KeepsFields.of_lookup (keepsFields_operationParts op) hnext
  | bound op subject =>
    have hsubject : subject.KeepsFields := h
    exact KeepsFields.of_lookup (keepsFields_boundParts op hsubject) hnext

/-- A part of a spot keeps the fields of the sections that it leads to. -/
theorem keepsFields_part {spot : Spot} (hstore : store.current.KeepsFields) (h : spot.KeepsFields)
    (hnext : spot.part? store name = some next) : next.KeepsFields := by
  rw [part?] at hnext
  split at hnext
  · cases hnext
    trivial
  · split at hnext
    · obtain ⟨note, -, rfl⟩ := Option.map_eq_some_iff.1 hnext
      trivial
    · rcases (Option.orElse_eq_some _ _ _).1 hnext with hown | ⟨-, hnature⟩
      · exact keepsFields_ownPart hstore h hown
      · exact keepsFields_byNature (by simpa using h) hnature

end Spot

namespace SettingsStore

variable {store changed : SettingsStore}

/-- A way through the settings leads to sections with their fields. -/
theorem keepsFields_follow (hstore : store.current.KeepsFields) {parts : List Text} {spot : Spot}
    (h : store.follow? parts = some spot) : spot.KeepsFields := by
  suffices ∀ start : Spot, start.KeepsFields → parts.foldlM (Spot.part? store) start = some spot →
      spot.KeepsFields from this .all trivial h
  clear h
  -- the start varies, since the parts that are left are followed from wherever the first one leads
  induction parts with
  | nil =>
    rintro start hstart ⟨⟩
    exact hstart
  | cons part parts ih =>
    intro start hstart h
    rw [List.foldlM_cons] at h
    obtain ⟨next, hnext, hrest⟩ := Option.bind_eq_some_iff.1 h
    exact ih next (Spot.keepsFields_part hstore hstart hnext) hrest

/-! ## Storing -/

/-- Whether a call is for storing a value over a whole section: its key leads to all settings, and
from there to a section. -/
def Replaces (store : SettingsStore) : SettingsCall → Prop
  | .put key _ => store.follow? (Text.splitOn '.' key).dropLast = some .all ∧
      (SectionName.ofKey? ((Text.splitOn '.' key).getLast?.getD [])).isSome
  | _ => False

/-- A value is stored over a section, in a field of one, or with a nature. -/
theorem storeAt_cases {field : Text} {value : Json} {spot : Spot}
    (h : store.storeAt? field value spot = some changed) :
    (spot = .all ∧ ∃ name, SectionName.ofKey? field = some name ∧
      changed.current = store.current.setSlot name (.replaced value)) ∨
    (∃ name fields, spot = .wholeSection name fields ∧ field ∈ Assoc.keys fields ∧
      changed.current = store.current.setSlot name (.fields (Assoc.put field value fields))) ∨
    changed.current = store.current := by
  cases spot with
  | all =>
    obtain ⟨name, hname, rfl⟩ := Option.map_eq_some_iff.1 h
    exact .inl ⟨rfl, name, hname, rfl⟩
  | wholeSection name fields =>
    rw [storeAt?] at h
    split at h
    · next hfield =>
      cases h
      obtain ⟨given, hgiven⟩ := Option.isSome_iff_exists.1 hfield
      exact .inr (.inl ⟨name, fields, rfl, Assoc.mem_keys_of_lookup hgiven, rfl⟩)
    · cases h
  | nature own =>
    rw [storeAt?] at h
    split at h
    · cases h
      exact .inr (.inr rfl)
    · cases h
  | _ => cases h

/-- Storing under a key changes what the key leads to by all parts but the last, or is refused. -/
theorem run_put (key : Text) (value : Json) (store : SettingsStore) :
    (put key value).run store =
      match (store.follow? (Text.splitOn '.' key).dropLast).bind
          (store.storeAt? ((Text.splitOn '.' key).getLast?.getD []) value) with
      | none => .error (.refused (.invalidKey key)) store
      | some changed => .ok () changed := by
  change EStateM.run (match (store.follow? (Text.splitOn '.' key).dropLast).bind
    (store.storeAt? ((Text.splitOn '.' key).getLast?.getD []) value) with
    | none => throw (SettingsFailure.refused (.invalidKey key))
    | some changed => EStateM.set changed) store = _
  split <;> rfl

/-- What a call can do to the settings: nothing, make all sections anew, give a section other values
of its fields, or, if it is for that, store a value over a section. -/
theorem after_cases (h : store.current.KeepsFields) (call : SettingsCall) :
    (store.after call).current = store.current ∨ (store.after call).current.IsComplete ∨
      (∃ name fields, Assoc.keys fields = Assoc.keys name.defaults ∧
        (store.after call).current = store.current.setSlot name (.fields fields)) ∨
      store.Replaces call ∧ ∃ name value,
        (store.after call).current = store.current.setSlot name (.replaced value) := by
  cases call with
  | load name file =>
    rw [after, SettingsCall.op, run_load]
    rcases Settings.ofHostFile_cases name file with ⟨error, -, hread⟩ | ⟨crash, -, hread⟩ |
      ⟨root, settings, -, hoverlay, hread⟩
    · rw [hread]
      exact .inl rfl
    · rw [hread]
      exact .inl rfl
    · rw [hread]
      exact .inr (.inl hoverlay.isComplete)
  | reset => exact .inr (.inl Settings.isComplete_builtIn)
  | put key value =>
    rw [after, SettingsCall.op, run_put]
    split
    · next hrun =>
      split at hrun
      · cases hrun
      · next found hfound =>
        cases hrun
        obtain ⟨spot, hspot, hstored⟩ := Option.bind_eq_some_iff.1 hfound
        rcases storeAt_cases hstored with ⟨rfl, name, hname, hchanged⟩ |
          ⟨name, fields, rfl, hmem, hchanged⟩ | hchanged
        · exact .inr (.inr (.inr ⟨⟨hspot, by rw [hname]; rfl⟩, name, value, hchanged⟩))
        · -- the section may have been met anywhere on the way, so its fields come from the way
          refine .inr (.inr (.inl ⟨name, _, ?_, hchanged⟩))
          rw [Assoc.keys_put, if_pos hmem]
          exact keepsFields_follow h hspot
        · exact .inl hchanged
    · next hrun =>
      split at hrun
      · cases hrun
        exact .inl rfl
      · cases hrun

/-- A call leaves the fields of what is not replaced. -/
theorem keepsFields_after (h : store.current.KeepsFields) (call : SettingsCall) :
    (store.after call).current.KeepsFields := by
  rcases after_cases h call with hsame | hcomplete | ⟨name, fields, hkeys, hset⟩ |
    ⟨-, name, value, hset⟩
  · rw [hsame]
    exact h
  · exact hcomplete.keepsFields
  · rw [hset]
    refine h.setSlot fun entries heq => ?_
    cases heq
    exact hkeys
  · rw [hset]
    exact h.setSlot nofun

/-- A call that is not for storing over a section leaves all sections. -/
theorem isComplete_after (h : store.current.IsComplete) {call : SettingsCall}
    (hcall : ¬store.Replaces call) : (store.after call).current.IsComplete := by
  rcases after_cases h.keepsFields call with hsame | hcomplete | ⟨name, fields, hkeys, hset⟩ |
    ⟨hreplaces, -⟩
  · rw [hsame]
    exact h
  · exact hcomplete
  · rw [hset]
    exact h.setSlot hkeys
  · exact absurd hreplaces hcall

/-- One more call is made from where the others lead to. -/
theorem reached_concat (calls : List SettingsCall) (call : SettingsCall) :
    reached (calls ++ [call]) = (reached calls).after call := by
  rw [reached, List.foldl_append]
  rfl

/-- After any calls what is not replaced has the fields of its section. -/
theorem keepsFields_reached (calls : List SettingsCall) :
    (reached calls).current.KeepsFields := by
  induction calls using List.reverseRecOn with
  | nil => exact Settings.isComplete_builtIn.keepsFields
  | append_singleton calls call ih =>
    rw [reached_concat]
    exact keepsFields_after ih call

/-- After calls none of which is for storing over a section there are all sections. -/
theorem isComplete_reached {calls : List SettingsCall}
    (h : ∀ front call, front ++ [call] <+: calls → ¬(reached front).Replaces call) :
    (reached calls).current.IsComplete := by
  induction calls using List.reverseRecOn with
  | nil => exact Settings.isComplete_builtIn
  | append_singleton calls call ih =>
    rw [reached_concat]
    have hcalls := ih fun front before hfront =>
      h front before (hfront.trans (List.prefix_append calls [call]))
    exact isComplete_after hcalls (h calls call (List.prefix_refl _))

end SettingsStore

end MemShell
