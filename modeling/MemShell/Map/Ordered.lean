import MemShell.Map.Assoc

/-!
# Ordered maps

A finite map whose keys stand in the order in which they were first stored. The keys are distinct by
construction.
-/

namespace MemShell

/-- A finite map that remembers the order of its keys. -/
structure OrderedMap (κ ν : Type) [DecidableEq κ] where
  /-- The pairs in order. -/
  entries : List (κ × ν)
  /-- No key occurs twice. -/
  nodup : (Assoc.keys entries).Nodup

namespace OrderedMap

variable {κ ν : Type} [DecidableEq κ]

/-- The map without keys. -/
def empty : OrderedMap κ ν := ⟨[], List.nodup_nil⟩

instance : Inhabited (OrderedMap κ ν) := ⟨empty⟩

/-- Two maps with the same pairs in the same order are equal. -/
theorem eq_of_entries {m n : OrderedMap κ ν} (h : m.entries = n.entries) : m = n := by
  cases m; cases n; cases h; rfl

instance [DecidableEq ν] : DecidableEq (OrderedMap κ ν) := fun m n =>
  if h : m.entries = n.entries then isTrue (eq_of_entries h)
  else isFalse fun he => h (congrArg entries he)

/-- The keys in order. -/
def keys (m : OrderedMap κ ν) : List κ := Assoc.keys m.entries

/-- The value under a key. -/
def get? (m : OrderedMap κ ν) (key : κ) : Option ν := m.entries.lookup key

/-- Whether there is a value under a key. -/
def contains (m : OrderedMap κ ν) (key : κ) : Bool := (m.get? key).isSome

/-- The map with a value stored under a key. -/
def insert (m : OrderedMap κ ν) (key : κ) (value : ν) : OrderedMap κ ν :=
  ⟨Assoc.put key value m.entries, Assoc.nodup_keys_put m.nodup⟩

/-- The map without a key. -/
def erase (m : OrderedMap κ ν) (key : κ) : OrderedMap κ ν :=
  ⟨Assoc.erase key m.entries, Assoc.nodup_keys_erase m.nodup⟩

/-- The map in which each pair of a list has been stored in turn. -/
def ofList (pairs : List (κ × ν)) : OrderedMap κ ν :=
  ⟨Assoc.ofList pairs, Assoc.nodup_keys_ofList pairs⟩

/-- Whether two maps hold the same values under the same keys, whatever the order. -/
def agrees [DecidableEq ν] (m n : OrderedMap κ ν) : Bool :=
  m.entries.length == n.entries.length &&
    m.entries.all fun (key, value) => n.get? key = some value

/-- A stored value is found under its key, and nothing else changes. -/
@[simp] theorem get?_insert (m : OrderedMap κ ν) (key k : κ) (value : ν) :
    (m.insert key value).get? k = if k = key then some value else m.get? k :=
  Assoc.lookup_put key k value m.entries

/-- An erased key is gone, and nothing else changes. -/
@[simp] theorem get?_erase (m : OrderedMap κ ν) (key k : κ) :
    (m.erase key).get? k = if k = key then none else m.get? k :=
  Assoc.lookup_erase key k m.entries

/-- The empty map has no values. -/
@[simp] theorem get?_empty (key : κ) : (empty : OrderedMap κ ν).get? key = none := rfl

end OrderedMap

end MemShell
