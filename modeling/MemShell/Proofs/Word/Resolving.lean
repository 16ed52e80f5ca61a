import MemShell.Word.Expansion

/-!
# Steps of the resolver

What one character of a word does: inside a quoted span only the quote that opened it, a backslash
and, in double quotes, a dollar sign have a meaning, and elsewhere a quote opens a span.
-/

namespace MemShell.Word

variable (env : Environment) (word : Text) (rest : Text)

@[simp] theorem map_nil_append (result : Except WordError Text) :
    result.map ([] ++ ·) = result := by
  cases result <;> rfl

/-- What is put in front twice is put in front at once. -/
theorem map_append_map (front back : Text) (result : Except WordError Text) :
    (result.map (back ++ ·)).map (front ++ ·) = result.map (front ++ back ++ ·) := by
  cases result with
  | error error => rfl
  | ok marked => exact congrArg Except.ok (List.append_assoc front back marked).symm

/-- A quote opens its span unless it stands in one. -/
theorem resolve_open {groups : List Group} {c : Char} {quote : Group}
    (hq : Group.ofQuote? c = some quote) (hg : ∀ top ∈ groups.head?, top = .brace) :
    resolve env word groups (c :: rest) =
      (resolve env word (quote :: groups) rest).map (keptQuote (!groups.isEmpty) c ++ ·) := by
  have hb : c ≠ '\\' := by rintro rfl; cases hq
  have hv : c ≠ '$' := by rintro rfl; cases hq
  cases groups with
  | nil =>
    rw [resolve.eq_6 _ _ _ _ hb hv, hq]
    exact (map_nil_append _).symm
  | cons top outer =>
    obtain rfl : top = .brace := hg top rfl
    rw [resolve.eq_7 _ _ _ _ _ hb hv, hq]
    rfl

/-- The quote that opened a span closes it. -/
theorem resolve_close (quote : Group) (hq : quote.isQuote = true) (outer : List Group) :
    resolve env word (quote :: outer) (quote.opening :: rest) =
      (resolve env word outer rest).map
        (keptQuote (decide (.brace ∈ outer)) quote.opening ++ ·) := by
  cases quote with
  | brace => cases hq
  | single | double =>
    rw [resolve.eq_8 _ _ _ _ _ _ (by decide) (by decide) (by simp), if_pos rfl]
    simp

/-- Any other character of a quoted span is literal. -/
theorem resolve_within (quote : Group) (hq : quote.isQuote = true) (outer : List Group) {c : Char}
    (hb : c ≠ '\\') (hc : c ≠ quote.opening) (hv : c ≠ '$') :
    resolve env word (quote :: outer) (c :: rest) =
      (resolve env word (quote :: outer) rest).map (Marked.escape [c] ++ ·) := by
  rw [resolve.eq_8 _ _ _ _ _ _ hb hv (by rintro rfl; cases hq), if_neg hc]

/-- An opening brace opens a group unless it stands in a quoted span. -/
theorem resolve_group {groups : List Group} (hg : ∀ top ∈ groups.head?, top = .brace) :
    resolve env word groups ('\x7b' :: rest) = resolve env word (.brace :: groups) rest := by
  cases groups with
  | nil => rw [resolve.eq_6 _ _ _ _ (by decide) (by decide)]; rfl
  | cons top outer =>
    obtain rfl : top = .brace := hg top rfl
    rw [resolve.eq_7 _ _ _ _ _ (by decide) (by decide)]
    rfl

/-- A closing brace closes its group. -/
theorem resolve_group_end (outer : List Group) :
    resolve env word (.brace :: outer) ('\x7d' :: rest) = resolve env word outer rest := by
  rw [resolve.eq_7 _ _ _ _ _ (by decide) (by decide)]
  rfl

/-! ## The start of a word -/

/-- A tilde that is the whole word, or that a slash follows, is resolved to the home directory. -/
theorem mark_home {rest : Text} (h : rest = [] ∨ rest.head? = some '/') :
    mark env ('~' :: rest) =
      (resolve env ('~' :: rest) [] rest).map (Marked.escape (home env) ++ ·) := by
  cases rest with
  | nil => simp [mark, resolve, Except.map]
  | cons c rest =>
    obtain rfl : c = '/' := by simpa using h
    rfl

/-- Any other word is resolved from its start. -/
theorem mark_of_not_home {word : Text}
    (h : ∀ rest, word = '~' :: rest → ¬(rest = [] ∨ rest.head? = some '/')) :
    mark env word = resolve env word [] word := by
  unfold mark
  split
  · exact absurd (.inl rfl) (h [] rfl)
  · next rest => exact absurd (.inr rfl) (h ('/' :: rest) rfl)
  · rfl

/-- A word that does not start with a tilde is resolved from its start. -/
theorem mark_eq_resolve {word : Text} (h : word.head? ≠ some '~') :
    mark env word = resolve env word [] word := by
  refine mark_of_not_home env fun rest hrest => ?_
  rw [hrest] at h
  exact absurd rfl h

end MemShell.Word
