/-!
# Association lists

A list of pairs as a finite map that remembers the order in which its keys came. Writing to a key
that is there keeps its place; a new key goes to the end.
-/

namespace MemShell.Assoc

variable {κ ν : Type} [DecidableEq κ]

/-- The keys in order. -/
def keys (entries : List (κ × ν)) : List κ := entries.map Prod.fst

/-- The pairs after a value has been stored under a key. -/
def put (key : κ) (value : ν) : List (κ × ν) → List (κ × ν)
  | [] => [(key, value)]
  | (k, v) :: rest => if k = key then (k, value) :: rest else (k, v) :: put key value rest

/-- The pairs of all other keys. -/
def erase (key : κ) (entries : List (κ × ν)) : List (κ × ν) := entries.filter (·.1 ≠ key)

/-- The map in which each pair of a list has been stored in turn. -/
def ofList (pairs : List (κ × ν)) : List (κ × ν) :=
  pairs.foldl (fun entries pair => put pair.1 pair.2 entries) []

section Lookup

variable [BEq κ] [LawfulBEq κ]

private theorem lookup_cons_ite (k k' : κ) (v : ν) (rest : List (κ × ν)) :
    ((k', v) :: rest).lookup k = if k = k' then some v else rest.lookup k := by
  by_cases h : k = k'
  · rw [List.lookup_cons, beq_iff_eq.2 h, if_pos h]
  · rw [List.lookup_cons, beq_eq_false_iff_ne.2 h, if_neg h]

/-- A stored value is found under its key, and nothing else changes. -/
theorem lookup_put (key k : κ) (value : ν) (entries : List (κ × ν)) :
    (put key value entries).lookup k = if k = key then some value else entries.lookup k := by
  induction entries with
  | nil => rw [put, lookup_cons_ite]
  | cons pair rest ih =>
    obtain ⟨k', v⟩ := pair
    rw [put]
    split
    · next h => subst h; by_cases hk : k = k' <;> simp [lookup_cons_ite, hk]
    · next h =>
      by_cases hk : k = k'
      · subst hk; simp [h]
      · simp [lookup_cons_ite, hk, ih]

/-- An erased key is gone, and nothing else changes. -/
theorem lookup_erase (key k : κ) (entries : List (κ × ν)) :
    (erase key entries).lookup k = if k = key then none else entries.lookup k := by
  induction entries with
  | nil => simp [erase]
  | cons pair rest ih =>
    obtain ⟨k', v⟩ := pair
    rw [erase] at ih ⊢
    by_cases hk : k' = key
    · rw [List.filter_cons_of_neg (by simp [hk]), ih, lookup_cons_ite]
      by_cases hk' : k = key <;> simp [hk, hk']
    · rw [List.filter_cons_of_pos (by simp [hk]), lookup_cons_ite, lookup_cons_ite, ih]
      by_cases hk' : k = k'
      · simp [hk', hk]
      · simp [hk']

end Lookup

/-- Storing adds a key at the end or leaves the keys as they are. -/
theorem keys_put (key : κ) (value : ν) (entries : List (κ × ν)) :
    keys (put key value entries) =
      if key ∈ keys entries then keys entries else keys entries ++ [key] := by
  induction entries with
  | nil => simp [put, keys]
  | cons pair rest ih =>
    obtain ⟨k, v⟩ := pair
    rw [put]
    split
    · next h => simp [keys, h]
    · next h =>
      have hcons : keys ((k, v) :: put key value rest) = k :: keys (put key value rest) := rfl
      have hrest : keys ((k, v) :: rest) = k :: keys rest := rfl
      rw [hcons, hrest, ih]
      by_cases hm : key ∈ keys rest <;> simp [hm, Ne.symm h]

/-- Storing keeps the keys distinct. -/
theorem nodup_keys_put {key : κ} {value : ν} {entries : List (κ × ν)}
    (h : (keys entries).Nodup) : (keys (put key value entries)).Nodup := by
  rw [keys_put]
  split
  · exact h
  · next hk =>
    rw [List.nodup_append]
    exact ⟨h, by simp, by intro a ha b hb hab; simp_all⟩

/-- Erasing keeps the keys distinct. -/
theorem nodup_keys_erase {key : κ} {entries : List (κ × ν)} (h : (keys entries).Nodup) :
    (keys (erase key entries)).Nodup :=
  List.Nodup.sublist (List.Sublist.map _ List.filter_sublist) h

/-- The keys of a map made from a list are distinct. -/
theorem nodup_keys_ofList (pairs : List (κ × ν)) : (keys (ofList pairs)).Nodup := by
  suffices ∀ entries : List (κ × ν), (keys entries).Nodup →
      (keys (pairs.foldl (fun entries pair => put pair.1 pair.2 entries) entries)).Nodup from
    this [] List.nodup_nil
  induction pairs with
  | nil => exact fun _ h => h
  | cons pair pairs ih => exact fun entries h => ih _ (nodup_keys_put h)

end MemShell.Assoc
