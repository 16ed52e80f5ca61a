import MemShell.Proofs.Environment.Storing
import Mathlib.Data.List.Induction
import Mathlib.Data.List.TakeWhile

/-!
# Protection and last values

Some operations on variables respect the protection of read-only keys and some bypass it, and any of
them may be refused. A run of calls comes down to the changes that were not refused, and what is
read is the last of these that concerns the key. Main statement: what holds of an environment after
every run.
-/

namespace MemShell

/-- A change of the variables. -/
inductive VariableChange
  /-- A value is stored under a key. -/
  | store (key : Text) (value : Json)
  /-- A variable is deleted. -/
  | drop (key : Text)
  /-- All variables are deleted. -/
  | clear

namespace VariableChange

/-- The environment after a change. -/
def apply (env : Environment) : VariableChange → Environment
  | store key value => env.store key value
  | drop key => env.drop key
  | clear => env.clear

/-- Whether a change decides what is under a key. -/
def concerns (key : Text) : VariableChange → Bool
  | store other _ => other == key
  | drop other => other == key
  | clear => true

/-- A value is the last one under a key if it was stored there and neither another value nor a
deletion came after it. -/
def IsLastStored (key : Text) (value : Json) (changes : List VariableChange) : Prop :=
  ∃ earlier later, changes = earlier ++ store key value :: later ∧
    ∀ change ∈ later, change.concerns key = false

/-- The last value is the one that was stored just now, or the one from before if what was done just
now does not concern the key. -/
theorem isLastStored_concat {key : Text} {value : Json} {changes : List VariableChange}
    {change : VariableChange} : IsLastStored key value (changes ++ [change]) ↔
      change = store key value ∨ change.concerns key = false ∧ IsLastStored key value changes := by
  constructor
  · rintro ⟨earlier, later, heq, hlater⟩
    rcases List.eq_nil_or_concat later with rfl | ⟨later, last, rfl⟩
    · exact .inl (List.singleton_inj.1 (List.append_inj' heq rfl).2)
    · rw [List.concat_eq_append, ← List.cons_append, ← List.append_assoc] at heq
      obtain ⟨rfl, hlast⟩ := List.append_inj' heq rfl
      obtain rfl := List.singleton_inj.1 hlast
      rw [List.concat_eq_append, List.forall_mem_append] at hlater
      exact .inr ⟨hlater.2 _ List.mem_cons_self, earlier, later, rfl, hlater.1⟩
  · rintro (rfl | ⟨hchange, earlier, later, rfl, hlater⟩)
    · exact ⟨changes, [], rfl, fun change h => (List.not_mem_nil h).elim⟩
    · refine ⟨earlier, later ++ [change], by simp, ?_⟩
      rw [List.forall_mem_append, List.forall_mem_singleton]
      exact ⟨hlater, hchange⟩

/-- The last value was stored at some time. -/
theorem IsLastStored.mem {key : Text} {value : Json} {changes : List VariableChange}
    (h : IsLastStored key value changes) : store key value ∈ changes := by
  obtain ⟨earlier, later, rfl, -⟩ := h
  exact List.mem_append_right _ List.mem_cons_self

/-- A change that does not concern a key leaves the variable as it is. -/
theorem get?_apply_of_not_concerns {key : Text} {change : VariableChange}
    (h : change.concerns key = false) (env : Environment) :
    (apply env change).get? key = env.get? key := by
  cases change with
  | store other value =>
    rw [apply, Environment.get?_store, if_neg (ne_of_beq_false h).symm]
  | drop other =>
    rw [apply, Environment.get?_drop, if_neg (ne_of_beq_false h).symm]
  | clear => cases h

/-- A change that concerns a key stores the value of the variable or deletes it. -/
theorem get?_apply_of_concerns {key text : Text} {change : VariableChange}
    (h : change.concerns key = true) (env : Environment) :
    (apply env change).get? key = some text ↔
      ∃ value, change = store key value ∧ text = value.display := by
  cases change with
  | store other value =>
    obtain rfl : other = key := eq_of_beq h
    rw [apply, Environment.get?_store, if_pos rfl]
    simp [eq_comm]
  | drop other =>
    obtain rfl : other = key := eq_of_beq h
    simp [apply]
  | clear => simp [apply]

/-- After changes from nothing a variable has the value that was stored last. -/
theorem get?_foldl_apply {env : Environment} (h : env.bindings = .empty)
    (changes : List VariableChange) (key text : Text) :
    (changes.foldl apply env).get? key = some text ↔
      ∃ value, IsLastStored key value changes ∧ text = value.display := by
  induction changes using List.reverseRecOn with
  | nil =>
    rw [List.foldl_nil, Environment.get?, h]
    simp [IsLastStored]
  | append_singleton changes change ih =>
    rw [List.foldl_append, List.foldl_cons, List.foldl_nil]
    simp only [isLastStored_concat]
    cases hconcerns : change.concerns key with
    | true => simp [get?_apply_of_concerns hconcerns]
    | false =>
      have hstore : ∀ value, change ≠ store key value := by
        rintro value rfl
        simp [concerns] at hconcerns
      rw [get?_apply_of_not_concerns hconcerns, ih]
      simp [hstore]

/-- No change protects a key or gives its protection up. -/
theorem readOnlyKeys_foldl_apply (changes : List VariableChange) (env : Environment) :
    (changes.foldl apply env).readOnlyKeys = env.readOnlyKeys := by
  induction changes generalizing env with
  | nil => rfl
  | cons change changes ih =>
    rw [List.foldl_cons, ih]
    cases change <;> rfl

end VariableChange

/-- A call that may change the variables; the readers take an environment as it is. -/
inductive VariableCall
  /-- Sets a variable, a read-only one too. -/
  | set (key : Text) (value : Json)
  /-- Sets a variable unless it is read-only. -/
  | safeSet (key : Text) (value : Json)
  /-- Deletes a variable, a read-only one too. -/
  | delete (key : Text)
  /-- Deletes a variable unless it is read-only. -/
  | safeDelete (key : Text)
  /-- Sets variables one after the other. -/
  | load (values : List (Text × Json))
  /-- Deletes all variables, the read-only ones included. -/
  | clear

namespace VariableCall

open Environment VariableChange

/-- The operation that is called. -/
def op : VariableCall → VariableOp Unit
  | set key value => Environment.set key value
  | safeSet key value => Environment.safeSet key value
  | delete key => Environment.delete key
  | safeDelete key => Environment.safeDelete key
  | load values => Environment.load values
  | clear => modify Environment.clear

/-- Whether a call respects the protection of read-only keys. -/
def isCareful : VariableCall → Bool
  | safeSet _ _ => true
  | safeDelete _ => true
  | _ => false

/-- The changes that a call makes while certain keys are protected. -/
def changes (readOnlyKeys : List Text) : VariableCall → List VariableChange
  | set key value => if isKeyValid key then [.store key value] else []
  | safeSet key value =>
    if readOnlyKeys.contains key then [] else if isKeyValid key then [.store key value] else []
  | delete key => if isKeyValid key then [.drop key] else []
  | safeDelete key =>
    if readOnlyKeys.contains key then [] else if isKeyValid key then [.drop key] else []
  | load values =>
    (values.takeWhile fun entry => isKeyValid entry.1).map fun entry => .store entry.1 entry.2
  | clear => [.clear]

/-- Values are stored under valid keys only. -/
theorem isKeyValid_of_store_mem {readOnlyKeys : List Text} {call : VariableCall} {key : Text}
    {value : Json} (h : .store key value ∈ call.changes readOnlyKeys) : isKeyValid key = true := by
  cases call with
  | load values =>
    obtain ⟨entry, hentry, heq⟩ := List.mem_map.1 h
    cases heq
    have hvalid := List.mem_takeWhile_imp hentry
    exact hvalid
  | _ => grind [changes]

/-- Careful calls make no change that concerns a protected key. -/
theorem concerns_of_isCareful {readOnlyKeys : List Text} {call : VariableCall}
    (h : call.isCareful = true) {key : Text} (hkey : key ∈ readOnlyKeys) {change : VariableChange}
    (hchange : change ∈ call.changes readOnlyKeys) : change.concerns key = false := by
  cases call <;> grind [changes, isCareful, concerns]

end VariableCall

namespace Environment

open VariableChange

/-- The environment after a call, refused or not. -/
def after (env : Environment) (call : VariableCall) : Environment :=
  match call.op.run env with
  | .ok _ env => env
  | .error _ env => env

/-- A call makes its changes whether or not it is refused. Unless it loads several values there are
none if it is. -/
theorem run_cases (env : Environment) (call : VariableCall) :
    call.op.run env = .ok () ((call.changes env.readOnlyKeys).foldl apply env) ∨
      ∃ error, call.op.run env = .error error ((call.changes env.readOnlyKeys).foldl apply env) ∧
        ((∀ values, call ≠ .load values) → call.changes env.readOnlyKeys = []) := by
  cases call with
  | set key value =>
    rw [VariableCall.op, run_set_eq_ite, VariableCall.changes]
    by_cases hkey : isKeyValid key = true <;> simp [hkey, apply]
  | safeSet key value =>
    rw [VariableCall.op, run_safeSet_eq_ite, run_set_eq_ite, VariableCall.changes]
    by_cases hro : key ∈ env.readOnlyKeys <;> by_cases hkey : isKeyValid key = true <;>
      simp [hro, hkey, apply]
  | delete key =>
    rw [VariableCall.op, run_delete_eq_ite, VariableCall.changes]
    by_cases hkey : isKeyValid key = true <;> simp [hkey, apply]
  | safeDelete key =>
    rw [VariableCall.op, run_safeDelete_eq_ite, run_delete_eq_ite, VariableCall.changes]
    by_cases hro : key ∈ env.readOnlyKeys <;> by_cases hkey : isKeyValid key = true <;>
      simp [hro, hkey, apply]
  | load values =>
    rw [VariableCall.op, VariableCall.changes, List.foldl_map]
    rcases run_load_cases env values with ⟨hvalid, hrun⟩ |
      ⟨front, key, value, back, rfl, hfront, hkey, hrun⟩
    · rw [List.takeWhile_eq_self_iff.2 hvalid]
      exact .inl hrun
    · rw [List.takeWhile_append_of_pos hfront, List.takeWhile_cons_of_neg (by simp [hkey]),
        List.append_nil]
      exact .inr ⟨_, hrun, fun h => (h _ rfl).elim⟩
  | clear => exact .inl rfl

/-- What a call does is to make its changes one after the other. -/
theorem after_eq_foldl (env : Environment) (call : VariableCall) :
    env.after call = (call.changes env.readOnlyKeys).foldl apply env := by
  rw [after]
  rcases run_cases env call with hrun | ⟨error, hrun, -⟩ <;> rw [hrun]

/-- A run of calls makes the changes of its calls one after the other. -/
theorem foldl_after (env : Environment) (calls : List VariableCall) :
    calls.foldl after env = (calls.flatMap (·.changes env.readOnlyKeys)).foldl apply env := by
  induction calls generalizing env with
  | nil => rfl
  | cons call calls ih =>
    rw [List.foldl_cons, ih, after_eq_foldl, readOnlyKeys_foldl_apply, List.flatMap_cons,
      List.foldl_append]

/-- Careful calls leave every protected variable as it is. -/
theorem get?_foldl_after_of_isCareful {env : Environment} {calls : List VariableCall}
    (h : ∀ call ∈ calls, call.isCareful = true) {key : Text} (hkey : key ∈ env.readOnlyKeys) :
    (calls.foldl after env).get? key = env.get? key := by
  rw [foldl_after]
  have hchanges : ∀ change ∈ calls.flatMap (·.changes env.readOnlyKeys),
      change.concerns key = false := by
    intro change hchange
    obtain ⟨call, hcall, hmem⟩ := List.mem_flatMap.1 hchange
    exact VariableCall.concerns_of_isCareful (h call hcall) hkey hmem
  generalize calls.flatMap (·.changes env.readOnlyKeys) = changes at hchanges
  induction changes using List.reverseRecOn with
  | nil => rfl
  | append_singleton changes change ih =>
    rw [List.forall_mem_append, List.forall_mem_singleton] at hchanges
    rw [List.foldl_append, List.foldl_cons, List.foldl_nil,
      get?_apply_of_not_concerns hchanges.2, ih hchanges.1]

/-- A call that is refused leaves everything as it is, unless it loads several values. -/
theorem eq_of_refused {env rest : Environment} {call : VariableCall} {error : VariableError}
    (hcall : ∀ values, call ≠ .load values) (h : call.op.run env = .error error rest) :
    rest = env := by
  rcases run_cases env call with hrun | ⟨error, hrun, hchanges⟩
  · rw [hrun] at h
    cases h
  · rw [hrun, hchanges hcall] at h
    cases h
    rfl

/-- What holds of an environment with protected keys after certain changes. -/
structure IsSound (readOnlyKeys : List Text) (changes : List VariableChange)
    (env : Environment) : Prop where
  /-- Values are under keys that are not empty and whose characters may stand in a key. -/
  keys : ∀ key ∈ env.bindings.keys, key ≠ [] ∧ ∀ c ∈ key, isKeyChar c = true
  /-- What is read is the text of the last value that was stored under the key. -/
  get_iff : ∀ key text, env.get key = .ok text ↔
    ∃ value, IsLastStored key value changes ∧ text = value.display
  /-- A variable is set if there is such a value. -/
  has_iff : ∀ key, env.has key = true ↔ ∃ value, IsLastStored key value changes
  /-- However often the careful setters are called, the protected variables stay as they are, set
  or not. -/
  careful : ∀ calls : List VariableCall, (∀ call ∈ calls, call.isCareful = true) →
    ∀ key ∈ readOnlyKeys, (calls.foldl after env).get? key = env.get? key
  /-- A call that is refused leaves everything as it is, unless it loads several values. -/
  refused : ∀ call error rest, (∀ values, call ≠ VariableCall.load values) →
    call.op.run env = .error error rest → rest = env
  /-- If loading is refused, exactly what stands before the first key that is not valid has been
  stored, in order. -/
  load : ∀ values error rest, (load values).run env = .error error rest →
    ∃ front key value back, values = front ++ (key, value) :: back ∧
      (∀ entry ∈ front, isKeyValid entry.1 = true) ∧ isKeyValid key = false ∧
      error = .invalidKey key ∧ rest = env.storeAll front

/-- An environment is created by loading its first values into one without variables. -/
theorem eq_after_of_create {readOnlyKeys : List Text} {values : List (Text × Json)}
    {start : Environment} (h : create readOnlyKeys values = .ok start) :
    start = after ⟨.empty, readOnlyKeys⟩ (.load values) := by
  rw [create] at h
  rw [after, VariableCall.op]
  cases hrun : (load values).run ⟨.empty, readOnlyKeys⟩ with
  | ok _ env =>
    rw [hrun] at h
    exact (Except.ok.inj h).symm
  | error error env =>
    rw [hrun] at h
    cases h

/-- From an environment that is created with any protected keys and values, whatever is called: its
keys stay valid, what is read was stored last, careful calls respect the protection, and refused
ones leave everything as it is, except that a load keeps what it has stored. -/
theorem isSound_foldl_after {readOnlyKeys : List Text} {values : List (Text × Json)}
    {start : Environment} (h : create readOnlyKeys values = .ok start)
    (calls : List VariableCall) :
    IsSound readOnlyKeys ((.load values :: calls).flatMap (·.changes readOnlyKeys))
      (calls.foldl after start) := by
  have hrun : calls.foldl after start =
      ((.load values :: calls).flatMap (·.changes readOnlyKeys)).foldl apply
        ⟨.empty, readOnlyKeys⟩ := by
    rw [eq_after_of_create h, ← List.foldl_cons, foldl_after]
  have hreadOnly : (calls.foldl after start).readOnlyKeys = readOnlyKeys := by
    rw [hrun, readOnlyKeys_foldl_apply]
  have hget : ∀ key text, (calls.foldl after start).get? key = some text ↔ ∃ value,
      IsLastStored key value ((.load values :: calls).flatMap (·.changes readOnlyKeys)) ∧
        text = value.display := by
    intro key text
    rw [hrun]
    exact get?_foldl_apply rfl _ key text
  have hhas : ∀ key, (calls.foldl after start).has key = true ↔ ∃ value,
      IsLastStored key value ((.load values :: calls).flatMap (·.changes readOnlyKeys)) := by
    intro key
    simp only [has_iff, hget]
    exact ⟨fun ⟨_, value, hlast, _⟩ => ⟨value, hlast⟩, fun ⟨value, hlast⟩ => ⟨_, value, hlast, rfl⟩⟩
  constructor
  case keys =>
    intro key hkey
    obtain ⟨value, hlast⟩ := (hhas key).1 (OrderedMap.contains_iff.2 hkey)
    obtain ⟨call, -, hstore⟩ := List.mem_flatMap.1 hlast.mem
    exact isKeyValid_iff.1 (VariableCall.isKeyValid_of_store_mem hstore)
  case get_iff => exact fun key text => get_eq_ok_iff.trans (hget key text)
  case has_iff => exact hhas
  case careful =>
    intro careful hcareful key hkey
    rw [← hreadOnly] at hkey
    exact get?_foldl_after_of_isCareful hcareful hkey
  case refused => exact fun call error rest => eq_of_refused
  case load =>
    intro pairs error rest hload
    rcases run_load_cases (calls.foldl after start) pairs with ⟨-, hok⟩ |
      ⟨front, key, value, back, hpairs, hfront, hkey, herror⟩
    · rw [hok] at hload
      cases hload
    · rw [herror] at hload
      cases hload
      exact ⟨front, key, value, back, hpairs, hfront, hkey, rfl, rfl⟩

theorem isSound_foldl_after_refused :
    create [['c']] [(['c'], .string ['/']), (['u'], .string ['f'])] =
        .ok ⟨.ofList [(['c'], ['/']), (['u'], ['f'])], [['c']]⟩ ∧
      IsSound [['c']]
        [.store ['c'] (.string ['/']), .store ['u'] (.string ['f']), .store ['a'] (.string ['1']),
          .drop ['u']]
        ⟨.ofList [(['c'], ['/']), (['a'], ['1'])], [['c']]⟩ :=
  have hcreate : create [['c']] [(['c'], .string ['/']), (['u'], .string ['f'])] =
      .ok ⟨.ofList [(['c'], ['/']), (['u'], ['f'])], [['c']]⟩ := rfl
  ⟨hcreate, isSound_foldl_after hcreate
    [.safeSet ['c'] (.string ['x']), .load [(['a'], .string ['1']), ([' '], .string ['2'])],
      .safeDelete ['u']]⟩

end Environment

end MemShell
