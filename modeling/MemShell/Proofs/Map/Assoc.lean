import MemShell.Map.Ordered

/-!
# Lookup and storing

In a list with distinct keys being found under a key and being listed with it are the same. Storing
pairs one after the other keeps those with new keys in their order, and overwrites the values of the
others in their places.
-/

namespace MemShell

namespace Assoc

variable {κ ν : Type}

/-- Changing the values of entries keeps the keys. -/
theorem keys_map {μ : Type} (change : κ × ν → μ) (entries : List (κ × ν)) :
    keys (entries.map fun entry => (entry.1, change entry)) = keys entries := by
  rw [keys, keys, List.map_map]
  rfl

/-- A map over the values of entries is looked up by key. -/
theorem lookup_map [BEq κ] {μ : Type} (f : ν → μ) (key : κ) (entries : List (κ × ν)) :
    (entries.map fun entry => (entry.1, f entry.2)).lookup key = (entries.lookup key).map f := by
  induction entries with
  | nil => rfl
  | cons entry entries ih =>
    obtain ⟨other, value⟩ := entry
    rw [List.map_cons, List.lookup_cons, List.lookup_cons, ih]
    cases key == other <;> rfl

section Lookup

variable [BEq κ] [LawfulBEq κ]

/-- The first of several entries is met under its key, and the others under theirs. -/
theorem lookup_cons_eq_ite [DecidableEq κ] (key other : κ) (value : ν) (entries : List (κ × ν)) :
    ((key, value) :: entries).lookup other =
      if other = key then some value else entries.lookup other := by
  by_cases h : other = key
  · rw [List.lookup_cons, beq_iff_eq.2 h, if_pos h]
  · rw [List.lookup_cons, beq_eq_false_iff_ne.2 h, if_neg h]

/-- In a list with distinct keys a key is found with exactly the value that it is listed with. -/
theorem lookup_eq_some_iff {entries : List (κ × ν)}
    (h : (keys entries).Nodup) {key : κ} {value : ν} :
    entries.lookup key = some value ↔ (key, value) ∈ entries := by
  induction entries with
  | nil => simp
  | cons pair entries ih =>
    obtain ⟨k, v⟩ := pair
    obtain ⟨hk, hrest⟩ := List.nodup_cons.1 h
    by_cases hkey : key = k
    · subst hkey
      have hnone : (key, value) ∉ entries := fun hmem => hk (List.mem_map.2 ⟨_, hmem, rfl⟩)
      simp [hnone, eq_comm]
    · rw [List.lookup_cons, beq_eq_false_iff_ne.2 hkey]
      simp [hkey, ih hrest]

/-- A key is not found exactly if it is not listed. -/
theorem lookup_eq_none_iff {entries : List (κ × ν)} {key : κ} :
    entries.lookup key = none ↔ key ∉ keys entries := by
  rw [List.lookup_eq_none_iff, keys, List.mem_map, not_exists]
  refine forall_congr' fun entry => ?_
  rw [not_and, bne_iff_ne, ne_comm]

/-- A value that is found stands in an entry. -/
theorem mem_of_lookup {entries : List (κ × ν)} {key : κ} {value : ν}
    (h : entries.lookup key = some value) : (key, value) ∈ entries := by
  obtain ⟨front, back, rfl, -⟩ := List.lookup_eq_some_iff.1 h
  exact List.mem_append_right front List.mem_cons_self

/-- A key that is found is listed. -/
theorem mem_keys_of_lookup {entries : List (κ × ν)} {key : κ} {value : ν}
    (h : entries.lookup key = some value) : key ∈ keys entries :=
  List.mem_map.2 ⟨_, mem_of_lookup h, rfl⟩

/-- Rearranged entries with distinct keys are found as before. -/
theorem lookup_perm {entries others : List (κ × ν)} (h : entries.Perm others)
    (hnodup : (keys entries).Nodup) (key : κ) : entries.lookup key = others.lookup key := by
  have hothers : (keys others).Nodup := (h.map Prod.fst).nodup_iff.1 hnodup
  refine Option.ext fun value => ?_
  rw [lookup_eq_some_iff hnodup, lookup_eq_some_iff hothers, h.mem_iff]

/-- Entries with the same distinct keys in the same order and the same values are the same. -/
theorem eq_of_lookup {entries others : List (κ × ν)} (hkeys : keys entries = keys others)
    (hnodup : (keys entries).Nodup) (h : ∀ key, entries.lookup key = others.lookup key) :
    entries = others := by
  induction entries generalizing others with
  | nil => exact (List.map_eq_nil_iff.1 hkeys.symm).symm
  | cons entry entries ih =>
    obtain ⟨key, value⟩ := entry
    obtain ⟨⟨other, next⟩, rest, rfl⟩ : ∃ first rest, others = first :: rest :=
      List.exists_cons_of_ne_nil fun hnil => by simp [hnil, keys] at hkeys
    obtain ⟨rfl, hrest⟩ : key = other ∧ keys entries = keys rest := List.cons.inj hkeys
    obtain ⟨hkey, hnodup⟩ := List.nodup_cons.1 hnodup
    have hvalue : value = next := by simpa using h key
    subst hvalue
    rw [ih hrest hnodup fun other => ?_]
    by_cases hother : other = key
    · have hnone : key ∉ keys rest := hrest ▸ hkey
      rw [hother, lookup_eq_none_iff.2 hkey, lookup_eq_none_iff.2 hnone]
    · simpa [List.lookup_cons, beq_eq_false_iff_ne.2 hother] using h other

end Lookup

section Put

variable [DecidableEq κ]

/-- An entry after storing is the stored one or was there before. -/
theorem mem_put {key : κ} {value : ν} {entries : List (κ × ν)} {entry : κ × ν}
    (h : entry ∈ put key value entries) :
    entry = (key, value) ∨ entry ∈ entries := by
  induction entries with
  | nil => exact .inl (List.mem_singleton.1 h)
  | cons first entries ih =>
    rw [put] at h
    split at h
    · next hkey =>
      rcases List.mem_cons.1 h with rfl | h
      · exact .inl (by rw [hkey])
      · exact .inr (List.mem_cons_of_mem _ h)
    · rcases List.mem_cons.1 h with rfl | h
      · exact .inr List.mem_cons_self
      · exact (ih h).imp_right (List.mem_cons_of_mem _)

/-- A pair after storing several ones is one of them or was there before. -/
theorem mem_of_mem_foldl_put {pairs entries : List (κ × ν)} {pair : κ × ν}
    (h : pair ∈ pairs.foldl (fun entries pair => put pair.1 pair.2 entries) entries) :
    pair ∈ entries ∨ pair ∈ pairs := by
  induction pairs generalizing entries with
  | nil => exact .inl h
  | cons first pairs ih =>
    rcases ih h with h | h
    · rcases mem_put h with rfl | h
      · exact .inr List.mem_cons_self
      · exact .inl h
    · exact .inr (List.mem_cons_of_mem _ h)

/-- A pair of a map made from a list is a pair of the list. -/
theorem mem_of_mem_ofList {pairs : List (κ × ν)} {pair : κ × ν} (h : pair ∈ ofList pairs) :
    pair ∈ pairs :=
  (mem_of_mem_foldl_put h).resolve_left List.not_mem_nil

/-- Of several values that are stored under a key the last one counts. -/
theorem lookup_foldl_put [BEq κ] [LawfulBEq κ] (pairs entries : List (κ × ν)) (key : κ) :
    (pairs.foldl (fun entries pair => put pair.1 pair.2 entries) entries).lookup key =
      (pairs.reverse ++ entries).lookup key := by
  induction pairs generalizing entries with
  | nil => rfl
  | cons pair pairs ih =>
    obtain ⟨other, value⟩ := pair
    rw [List.foldl_cons, ih, List.reverse_cons, List.append_assoc, List.singleton_append,
      List.lookup_append, List.lookup_append, lookup_put, lookup_cons_eq_ite]

/-- In a map made from a list a key has its last value. -/
theorem lookup_ofList [BEq κ] [LawfulBEq κ] (pairs : List (κ × ν)) (key : κ) :
    (ofList pairs).lookup key = pairs.reverse.lookup key := by
  rw [ofList, lookup_foldl_put, List.append_nil]

/-- Storing pairs keeps the keys that are there and appends the new ones, each where it first
occurs. -/
theorem keys_foldl_put (pairs entries : List (κ × ν)) :
    keys (pairs.foldl (fun entries pair => put pair.1 pair.2 entries) entries) =
      keys entries ++ ((keys pairs).filter (· ∉ keys entries)).eraseDups := by
  induction pairs generalizing entries with
  | nil => exact (List.append_nil _).symm
  | cons pair pairs ih =>
    have hkeys : keys (pair :: pairs) = pair.1 :: keys pairs := rfl
    rw [List.foldl_cons, ih, keys_put, hkeys]
    by_cases hmem : pair.1 ∈ keys entries
    · rw [if_pos hmem, List.filter_cons_of_neg (by simpa using hmem)]
    · rw [if_neg hmem, List.filter_cons_of_pos (by simpa using hmem), List.eraseDups_cons,
        List.filter_filter, List.append_assoc, List.singleton_append]
      refine congrArg (fun rest => keys entries ++ pair.1 :: List.eraseDups rest) ?_
      refine List.filter_congr fun key _ => ?_
      by_cases hkey : key = pair.1 <;> simp [hkey]

/-- The keys of a map made from a list are those of the list, each where it first occurs. -/
theorem keys_ofList (pairs : List (κ × ν)) : keys (ofList pairs) = (keys pairs).eraseDups := by
  rw [ofList, keys_foldl_put]
  exact congrArg List.eraseDups (List.filter_eq_self.2 fun key _ => by simp [keys])

/-- A new key goes to the end. -/
theorem put_of_not_mem {key : κ} {entries : List (κ × ν)} (h : key ∉ keys entries) (value : ν) :
    put key value entries = entries ++ [(key, value)] := by
  induction entries with
  | nil => rfl
  | cons pair entries ih =>
    simp only [keys, List.map_cons, List.mem_cons, not_or] at h ih
    rw [put, if_neg (Ne.symm h.1), ih h.2, List.cons_append]

/-- Storing pairs with new distinct keys appends them. -/
theorem foldl_put {entries pairs : List (κ × ν)} (h : (keys (entries ++ pairs)).Nodup) :
    pairs.foldl (fun entries pair => put pair.1 pair.2 entries) entries = entries ++ pairs := by
  induction pairs generalizing entries with
  | nil => simp
  | cons pair pairs ih =>
    have hnew : pair.1 ∉ keys entries := by
      simp only [keys, List.map_append, List.map_cons, List.nodup_append, List.mem_cons] at h ⊢
      exact fun hmem => h.2.2 pair.1 hmem pair.1 (.inl rfl) rfl
    rw [List.foldl_cons, put_of_not_mem hnew, ih (by simpa using h)]
    simp

/-- Storing pairs with distinct keys keeps them as they are. -/
theorem ofList_of_nodup {pairs : List (κ × ν)} (h : (keys pairs).Nodup) : ofList pairs = pairs :=
  foldl_put h

/-- Of two values that are stored under a key the later one stays. -/
theorem put_put (key : κ) (first second : ν) (entries : List (κ × ν)) :
    put key second (put key first entries) = put key second entries := by
  induction entries with
  | nil => simp [put]
  | cons entry entries ih =>
    obtain ⟨other, value⟩ := entry
    by_cases h : other = key <;> simp [put, h, ih]

/-- A value that is stored under a key which is there can as well be stored before others. -/
theorem put_comm_of_mem {key other : κ} (hne : key ≠ other) {entries : List (κ × ν)}
    (hmem : key ∈ keys entries) (value next : ν) :
    put key value (put other next entries) = put other next (put key value entries) := by
  induction entries with
  | nil => exact absurd hmem List.not_mem_nil
  | cons entry entries ih =>
    obtain ⟨first, found⟩ := entry
    by_cases hkey : first = key
    · subst hkey
      simp [put, hne]
    · have hrest : key ∈ keys entries := (List.mem_cons.1 hmem).resolve_left (Ne.symm hkey)
      by_cases hother : first = other <;> simp [put, hkey, hother, hne.symm, ih hrest]

/-- A key that is there and stored under again is stored under before other keys. -/
theorem put_foldl_put_of_mem {key : κ} {pairs : List (κ × ν)} (hpairs : key ∉ keys pairs)
    {entries : List (κ × ν)} (hmem : key ∈ keys entries) (value : ν) :
    put key value (pairs.foldl (fun entries pair => put pair.1 pair.2 entries) entries) =
      pairs.foldl (fun entries pair => put pair.1 pair.2 entries) (put key value entries) := by
  induction pairs generalizing entries with
  | nil => rfl
  | cons pair pairs ih =>
    obtain ⟨hne, hrest⟩ := not_or.1 (fun h => hpairs (List.mem_cons.2 h))
    have hput : key ∈ keys (put pair.1 pair.2 entries) := by
      rw [keys_put]
      split
      · exact hmem
      · exact List.mem_append_left _ hmem
    rw [List.foldl_cons, List.foldl_cons, ih hrest hput, put_comm_of_mem hne hmem]

/-- Storing pairs and then one more is storing the pairs in which the one more has been stored. -/
theorem put_foldl_put {pairs : List (κ × ν)} (hpairs : (keys pairs).Nodup) (key : κ) (value : ν)
    (entries : List (κ × ν)) :
    put key value (pairs.foldl (fun entries pair => put pair.1 pair.2 entries) entries) =
      (put key value pairs).foldl (fun entries pair => put pair.1 pair.2 entries) entries := by
  induction pairs generalizing entries with
  | nil => rfl
  | cons pair pairs ih =>
    obtain ⟨other, found⟩ := pair
    obtain ⟨hother, hrest⟩ := List.nodup_cons.1 hpairs
    by_cases h : other = key
    · subst h
      have hmem : other ∈ keys (put other found entries) := by
        rw [keys_put]
        split
        · assumption
        · exact List.mem_append_right _ (List.mem_singleton_self other)
      simp only [put, List.foldl_cons, ↓reduceIte]
      rw [put_foldl_put_of_mem hother hmem, put_put]
    · simp only [put, h, List.foldl_cons, ↓reduceIte]
      exact ih hrest _

/-- Storing the pairs of a map in which others have been stored is storing the pairs of the map and
then the others. -/
theorem foldl_put_foldl_put {stored : List (κ × ν)} (h : (keys stored).Nodup)
    (pairs entries : List (κ × ν)) :
    (pairs.foldl (fun entries pair => put pair.1 pair.2 entries) stored).foldl
        (fun entries pair => put pair.1 pair.2 entries) entries =
      pairs.foldl (fun entries pair => put pair.1 pair.2 entries)
        (stored.foldl (fun entries pair => put pair.1 pair.2 entries) entries) := by
  induction pairs generalizing stored with
  | nil => rfl
  | cons pair pairs ih => rw [List.foldl_cons, ih (nodup_keys_put h), ← put_foldl_put h,
      List.foldl_cons]

/-- Storing under a key that is there changes its value only. -/
theorem put_of_mem {key : κ} {entries : List (κ × ν)} (hmem : key ∈ keys entries)
    (h : (keys entries).Nodup) (value : ν) :
    put key value entries =
      entries.map fun entry => (entry.1, if entry.1 = key then value else entry.2) := by
  induction entries with
  | nil => exact absurd hmem List.not_mem_nil
  | cons entry entries ih =>
    obtain ⟨other, found⟩ := entry
    obtain ⟨hother, hrest⟩ := List.nodup_cons.1 h
    by_cases hkey : other = key
    · subst hkey
      have hsame : entries.map (fun entry =>
          (entry.1, if entry.1 = other then value else entry.2)) = entries := by
        refine (List.map_congr_left fun entry hentry => ?_).trans (List.map_id entries)
        rw [if_neg fun heq => hother (List.mem_map.2 ⟨entry, hentry, heq⟩)]
        rfl
      simp [put, hsame]
    · have htail : key ∈ keys entries := (List.mem_cons.1 hmem).resolve_left (Ne.symm hkey)
      simp [put, hkey, ih htail hrest]

/-- Storing the pairs of a map overwrites the values of the keys that are there, which keep their
places, and appends the others in their order. -/
theorem foldl_put_eq [BEq κ] [LawfulBEq κ] {pairs entries : List (κ × ν)}
    (hpairs : (keys pairs).Nodup) (hentries : (keys entries).Nodup) :
    pairs.foldl (fun entries pair => put pair.1 pair.2 entries) entries =
      (entries.map fun entry => (entry.1, (pairs.lookup entry.1).getD entry.2)) ++
        pairs.filter fun pair => pair.1 ∉ keys entries := by
  induction pairs generalizing entries with
  | nil => simp
  | cons pair pairs ih =>
    obtain ⟨key, value⟩ := pair
    obtain ⟨hkey, hrest⟩ := List.nodup_cons.1 hpairs
    have hnone : pairs.lookup key = none := lookup_eq_none_iff.2 hkey
    rw [List.foldl_cons, ih hrest (nodup_keys_put hentries), keys_put]
    by_cases hmem : key ∈ keys entries
    · rw [if_pos hmem, put_of_mem hmem hentries, List.map_map,
        List.filter_cons_of_neg (by simpa using hmem)]
      refine congrArg (· ++ _) (List.map_congr_left fun entry _ => ?_)
      by_cases hentry : entry.1 = key <;> simp [lookup_cons_eq_ite, hentry, hnone]
    · rw [if_neg hmem, put_of_not_mem hmem, List.map_append, List.append_assoc,
        List.filter_cons_of_pos (by simpa using hmem)]
      have hmap : (entries.map fun entry => (entry.1, (pairs.lookup entry.1).getD entry.2)) =
          entries.map fun entry =>
            (entry.1, (((key, value) :: pairs).lookup entry.1).getD entry.2) := by
        refine List.map_congr_left fun entry hentry => ?_
        have hne : entry.1 ≠ key := fun heq => hmem (List.mem_map.2 ⟨entry, hentry, heq⟩)
        rw [lookup_cons_eq_ite, if_neg hne]
      have hfilter : (pairs.filter fun pair => decide (pair.1 ∉ keys entries ++ [key])) =
          pairs.filter fun pair => decide (pair.1 ∉ keys entries) := by
        refine List.filter_congr fun pair hpair => ?_
        have hne : pair.1 ≠ key := fun heq => hkey (List.mem_map.2 ⟨pair, hpair, heq⟩)
        simp [hne]
      rw [hmap, hfilter]
      simp [hnone]

end Put

end Assoc

namespace OrderedMap

variable {κ ν : Type} [DecidableEq κ]

/-- Storing the pairs of a map one after the other makes the map. -/
theorem ofList_entries (map : OrderedMap κ ν) : ofList map.entries = map :=
  eq_of_entries (Assoc.ofList_of_nodup map.nodup)

/-- Pairs are stored in a map one after the other as in its entries. -/
theorem entries_foldl_insert (map : OrderedMap κ ν) (pairs : List (κ × ν)) :
    (pairs.foldl (fun map pair => map.insert pair.1 pair.2) map).entries =
      pairs.foldl (fun entries pair => Assoc.put pair.1 pair.2 entries) map.entries := by
  induction pairs generalizing map with
  | nil => rfl
  | cons pair pairs ih => exact ih (map.insert pair.1 pair.2)

/-- There is a value under the keys of a map and no others. -/
theorem contains_iff {map : OrderedMap κ ν} {key : κ} :
    map.contains key = true ↔ key ∈ map.keys := by
  rw [contains, get?, Option.isSome_iff_exists]
  simp only [Assoc.lookup_eq_some_iff map.nodup]
  exact ⟨fun ⟨value, h⟩ => List.mem_map.2 ⟨_, h, rfl⟩, fun h => by
    obtain ⟨entry, hentry, rfl⟩ := List.mem_map.1 h
    exact ⟨entry.2, hentry⟩⟩

/-- In a map that is overwritten with another the keys that are there keep their places, and the
others follow in their order. -/
theorem entries_overwritten (map other : OrderedMap κ ν) :
    (other.entries.foldl (fun map pair => map.insert pair.1 pair.2) map).entries =
      (map.entries.map fun entry => (entry.1, (other.get? entry.1).getD entry.2)) ++
        other.entries.filter fun entry => !map.contains entry.1 := by
  rw [entries_foldl_insert, Assoc.foldl_put_eq other.nodup map.nodup]
  refine congrArg (_ ++ ·) (List.filter_congr fun entry _ => ?_)
  rw [Bool.eq_iff_iff, Bool.not_eq_true', ← Bool.not_eq_true, contains_iff, decide_eq_true_iff]
  rfl

end OrderedMap

end MemShell
