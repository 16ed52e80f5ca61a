import MemShell.Json.Reader
import MemShell.Proofs.Map.Assoc

/-!
# Distinct names

Of two fields with one name the reader keeps one. So every object that it gives, the value itself or
one that is reached through fields, has distinct names.
-/

namespace MemShell

namespace Json

/-- A value is no object, or its names are distinct and all its fields hold such values. -/
inductive Distinct : Json → Prop
  /-- An object with distinct names. -/
  | object {fields : List (Text × Json)} (nodup : (Assoc.keys fields).Nodup)
    (inner : ∀ field ∈ fields, Distinct field.2) : Distinct (.object fields)
  /-- A value that is no object. -/
  | other {json : Json} (h : ∀ fields, json ≠ .object fields) : Distinct json

/-- What a reading is turned into comes from what has been read. -/
theorem exists_of_map {α β : Type} {f : α → β} {reading : Except ReadError α} {result : β}
    (h : reading.map f = .ok result) : ∃ found, reading = .ok found ∧ f found = result := by
  cases reading with
  | error error => cases h
  | ok found => exact ⟨found, rfl, Except.ok.inj h⟩

/-- A number is no object. -/
theorem distinct_unsignedNumber {negative : Bool} {text rest : Text} {json : Json}
    (h : unsignedNumber negative text = .ok (json, rest)) : json.Distinct := by
  unfold unsignedNumber at h
  repeat' split at h
  all_goals cases h
  all_goals exact .other nofun

/-- A literal name or a number is no object. -/
theorem distinct_scalar {text rest : Text} {json : Json} (h : scalar text = .ok (json, rest)) :
    json.Distinct := by
  unfold scalar at h
  split at h
  case h_7 | h_8 => exact distinct_unsignedNumber h
  all_goals
    cases h
    exact .other (by simp)

/-- A value that is read has distinct names if the values of fields have. -/
theorem distinct_value_succ {fuel : Nat}
    (hmembers : ∀ {text rest fields}, members fuel text = .ok (fields, rest) →
      ∀ field ∈ fields, field.2.Distinct)
    {text rest : Text} {json : Json} (h : value (fuel + 1) text = .ok (json, rest)) :
    json.Distinct := by
  unfold value at h
  dsimp only at h
  split at h
  · obtain ⟨pair, -, hpair⟩ := exists_of_map h
    cases hpair
    exact .other nofun
  · split at h
    · cases h
      exact .other nofun
    · obtain ⟨pair, -, hpair⟩ := exists_of_map h
      cases hpair
      exact .other nofun
  · split at h
    · cases h
      exact .object List.nodup_nil fun _ hnil => absurd hnil List.not_mem_nil
    · obtain ⟨pair, hread, hpair⟩ := exists_of_map h
      cases hpair
      exact .object (Assoc.nodup_keys_ofList _) fun field hfield =>
        hmembers hread field (Assoc.mem_of_mem_ofList hfield)
  · exact distinct_scalar h

/-- The values of fields that are read have distinct names if the first of them and those behind it
have. -/
theorem distinct_members_succ {fuel : Nat}
    (hvalue : ∀ {text rest json}, value fuel text = .ok (json, rest) → json.Distinct)
    (hmembers : ∀ {text rest fields}, members fuel text = .ok (fields, rest) →
      ∀ field ∈ fields, field.2.Distinct)
    {text rest : Text} {fields : List (Text × Json)}
    (h : members (fuel + 1) text = .ok (fields, rest)) : ∀ field ∈ fields, field.2.Distinct := by
  unfold members at h
  dsimp only at h
  split at h
  · split at h
    · cases h
    · next name rest hname =>
      split at h
      · split at h
        · cases h
        · next item rest hitem =>
          have hdistinct := hvalue hitem
          split at h
          · cases h
            exact List.forall_mem_singleton.2 hdistinct
          · obtain ⟨pair, hread, hpair⟩ := exists_of_map h
            cases hpair
            exact List.forall_mem_cons.2 ⟨hdistinct, hmembers hread⟩
          · cases h
      · cases h
  · cases h

/-- What is read has distinct names. -/
theorem distinct_value (fuel : Nat) :
    (∀ {text rest json}, value fuel text = .ok (json, rest) → json.Distinct) ∧
      ∀ {text rest fields}, members fuel text = .ok (fields, rest) →
        ∀ field ∈ fields, field.2.Distinct := by
  -- both at once, because values and fields are read by calls of each other
  induction fuel with
  | zero => exact ⟨nofun, nofun⟩
  | succ fuel ih =>
    obtain ⟨hvalue, hmembers⟩ := ih
    exact ⟨distinct_value_succ hmembers, distinct_members_succ hvalue hmembers⟩

/-- A value that is read from a text has distinct names. -/
theorem distinct_of_parse? {text : Text} {json : Json} (h : parse? text = some json) :
    json.Distinct := by
  rw [parse?_eq_some_iff, parse] at h
  split at h
  · next read rest hread =>
    split at h
    · cases h
      exact (distinct_value _).1 hread
    · cases h
  · cases h

end Json

end MemShell
