import MemShell.Environment.Basic
import MemShell.Proofs.Map.Assoc

/-!
# Storing variables

What the operations on variables do to an environment. A setter that is refused leaves everything as
it was, while loading stops at the first key that is not valid and keeps what it has stored by then.
Main statement: loading either stores everything or ends in this way.
-/

namespace MemShell

namespace Environment

/-- A key is valid if it is not empty and its characters may stand in a key. -/
theorem isKeyValid_iff {key : Text} :
    isKeyValid key = true ↔ key ≠ [] ∧ ∀ c ∈ key, isKeyChar c = true := by
  simp [isKeyValid]

/-- A stored value is found under its key, and nothing else changes. -/
@[simp] theorem get?_store (env : Environment) (key other : Text) (value : Json) :
    (env.store key value).get? other =
      if other = key then some value.display else env.get? other :=
  OrderedMap.get?_insert env.bindings key other value.display

/-- A deleted variable is gone, and nothing else changes. -/
@[simp] theorem get?_drop (env : Environment) (key other : Text) :
    (env.drop key).get? other = if other = key then none else env.get? other :=
  OrderedMap.get?_erase env.bindings key other

/-- After clearing no variable is set. -/
@[simp] theorem get?_clear (env : Environment) (key : Text) : env.clear.get? key = none := rfl

/-- A variable is set if it has a value. -/
theorem has_iff {env : Environment} {key : Text} :
    env.has key = true ↔ ∃ text, env.get? key = some text :=
  Option.isSome_iff_exists

/-- Reading a variable gives the value that it has. -/
theorem get_eq_ok_iff {env : Environment} {key text : Text} :
    env.get key = .ok text ↔ env.get? key = some text := by
  rw [get]
  cases env.get? key <;> simp

section Run

variable (env : Environment) (key : Text) (value : Json)

/-- The plain setter is refused exactly for keys that are not valid. -/
theorem run_set_eq_ite : (set key value).run env =
    if isKeyValid key then .ok () (env.store key value) else .error (.invalidKey key) env := by
  rw [set, checkKey]
  split <;> rfl

/-- So is the plain deletion. -/
theorem run_delete_eq_ite : (delete key).run env =
    if isKeyValid key then .ok () (env.drop key) else .error (.invalidKey key) env := by
  rw [delete, checkKey]
  split <;> rfl

/-- A key may be written unless it is protected. -/
theorem run_checkWritable : (checkWritable key).run env =
    if key ∈ env.readOnlyKeys then .error (.readOnly key) env else .ok () env := by
  change EStateM.run (if key ∈ env.readOnlyKeys then throw (VariableError.readOnly key)
    else pure ()) env = _
  split <;> rfl

/-- Where a key is protected the careful setter is refused for this reason, valid or not. -/
theorem run_safeSet_eq_ite : (safeSet key value).run env =
    if key ∈ env.readOnlyKeys then .error (.readOnly key) env else (set key value).run env := by
  rw [safeSet, EStateM.run_bind, run_checkWritable]
  by_cases h : key ∈ env.readOnlyKeys
  · rw [if_pos h, if_pos h]
  · rw [if_neg h, if_neg h]

/-- So is the careful deletion. -/
theorem run_safeDelete_eq_ite : (safeDelete key).run env =
    if key ∈ env.readOnlyKeys then .error (.readOnly key) env else (delete key).run env := by
  rw [safeDelete, EStateM.run_bind, run_checkWritable]
  by_cases h : key ∈ env.readOnlyKeys
  · rw [if_pos h, if_pos h]
  · rw [if_neg h, if_neg h]

/-- Loading begins with its first variable and goes on unless that one is refused. -/
theorem run_load_cons (values : List (Text × Json)) : (load ((key, value) :: values)).run env =
    if isKeyValid key then (load values).run (env.store key value)
    else .error (.invalidKey key) env := by
  rw [load, EStateM.run_bind, run_set_eq_ite]
  by_cases h : isKeyValid key = true
  · rw [if_pos h, if_pos h]
  · rw [if_neg h, if_neg h]

end Run

/-- Under a valid key a variable is set and its value is stored. -/
theorem run_set {key : Text} (h : isKeyValid key = true) (env : Environment) (value : Json) :
    (set key value).run env = .ok () (env.store key value) := by
  rw [run_set_eq_ite, if_pos h]

/-- The environment with values stored one after the other. -/
def storeAll (env : Environment) (values : List (Text × Json)) : Environment :=
  values.foldl (fun env entry => env.store entry.1 entry.2) env

/-- Loading stores everything if all keys are valid. Otherwise it stores exactly what stands before
the first key that is not, and reports that key. -/
theorem run_load_cases (env : Environment) (values : List (Text × Json)) :
    (∀ entry ∈ values, isKeyValid entry.1 = true) ∧
        (load values).run env = .ok () (env.storeAll values) ∨
      ∃ front key value back, values = front ++ (key, value) :: back ∧
        (∀ entry ∈ front, isKeyValid entry.1 = true) ∧ isKeyValid key = false ∧
        (load values).run env = .error (.invalidKey key) (env.storeAll front) := by
  induction values generalizing env with
  | nil => exact .inl ⟨fun entry h => (List.not_mem_nil h).elim, rfl⟩
  | cons entry values ih =>
    obtain ⟨key, value⟩ := entry
    by_cases hkey : isKeyValid key = true
    · rw [run_load_cons, if_pos hkey]
      rcases ih (env.store key value) with ⟨hvalid, hrun⟩ |
        ⟨front, other, text, back, rfl, hfront, hother, hrun⟩
      · exact .inl ⟨List.forall_mem_cons.2 ⟨hkey, hvalid⟩, hrun⟩
      · exact .inr ⟨(key, value) :: front, other, text, back, rfl,
          List.forall_mem_cons.2 ⟨hkey, hfront⟩, hother, hrun⟩
    · rw [run_load_cons, if_neg hkey]
      exact .inr ⟨[], key, value, values, rfl, fun entry h => (List.not_mem_nil h).elim,
        eq_false_of_ne_true hkey, rfl⟩

end Environment

end MemShell
