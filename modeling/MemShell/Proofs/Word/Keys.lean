import MemShell.Proofs.Environment.Storing
import MemShell.Proofs.Word.References
import Mathlib.Data.List.TakeWhile

/-!
# Keys as references

A variable is set under a key and read by its name behind a dollar sign. Of a key in double quotes
the longest name at its start is read as the variable and the rest is literal, so a variable can be
read back exactly if its whole key is a name. Main statement: of the keys under which a variable can
be set, these are the ones without the four letters outside ASCII.
-/

namespace MemShell

namespace Word

open Environment

/-- A character of a key differs from every character that is in no key. -/
theorem ne_of_isKeyChar {c d : Char} (hc : isKeyChar c = true) (hd : isKeyChar d = false) :
    c ≠ d := by
  rintro rfl
  rw [hc] at hd
  cases hd

/-- The name at the start of a text ends at a quote at the latest. -/
theorem variableName_append_quote (text : Text) :
    variableName (text ++ ['"']) = variableName text := by
  induction text with
  | nil => rfl
  | cons c text ih =>
    simp only [variableName] at ih ⊢
    rw [List.cons_append, List.takeWhile_cons, List.takeWhile_cons, ih]

/-- What follows the name at the start of a text is followed by a quote. -/
theorem afterName_append_quote (text : Text) :
    afterName (text ++ ['"']) = afterName text ++ ['"'] := by
  induction text with
  | nil => rfl
  | cons c text ih =>
    simp only [afterName] at ih ⊢
    rw [List.cons_append, List.dropWhile_cons, List.dropWhile_cons, ih]
    split <;> rfl

/-- The characters of a key are literal in double quotes. -/
theorem resolve_key (env : Environment) (word : Text) {text : Text}
    (h : ∀ c ∈ text, isKeyChar c = true) (rest : Text) :
    resolve env word [.double] (text ++ rest) =
      (resolve env word [.double] rest).map (Marked.escape text ++ ·) := by
  induction text with
  | nil => exact (map_nil_append _).symm
  | cons c text ih =>
    obtain ⟨hc, htext⟩ := List.forall_mem_cons.1 h
    have hslash : c ≠ '\\' := ne_of_isKeyChar hc (by decide)
    have hquote : c ≠ Group.double.opening := ne_of_isKeyChar hc (by decide)
    have hdollar : c ≠ '$' := ne_of_isKeyChar hc (by decide)
    rw [List.cons_append, resolve_within env word _ .double rfl [] hslash hquote hdollar, ih htext]
    cases resolve env word [.double] rest <;> simp [Except.map, Marked.escape]

/-- What a key stands for behind a dollar sign in double quotes: the longest name at its start is
the variable that is read, and the rest of the key is literal. -/
theorem expand_quotedKey {key : Text} (h : isKeyValid key = true) (env : Environment)
    (fs : FileSystem) :
    expand env fs (quotedReference key) =
      if variableName key = [] then .error (.word (.missingName (quotedReference key)))
      else .ok [env.getD (variableName key) [] ++ afterName key] := by
  obtain ⟨-, hchars⟩ := isKeyValid_iff.1 h
  have hword : (quotedReference key).head? ≠ some '~' := by simp [quotedReference]
  have hopens : resolve env (quotedReference key) [] (quotedReference key) =
      resolve env (quotedReference key) [.double] ('$' :: (key ++ ['"'])) := by
    rw [quotedReference, reference, resolve_open env _ _ rfl (by simp)]
    exact map_nil_append _
  have hmark : mark env (quotedReference key) =
      if variableName key = [] then .error (.missingName (quotedReference key))
      else .ok (Marked.escape (env.getD (variableName key) [] ++ afterName key)) := by
    rw [mark_eq_resolve env hword, hopens, resolve.eq_5 _ _ _ _ (by simp),
      variableName_append_quote, afterName_append_quote]
    by_cases hname : variableName key = []
    · simp [hname]
    · have hrest : ∀ c ∈ afterName key, isKeyChar c = true := fun c hc =>
        hchars c ((List.dropWhile_sublist _).subset hc)
      have hcloses : resolve env (quotedReference key) [.double] ['"'] = .ok [] := by
        simp [resolve, Group.opening, keptQuote, Except.map]
      rw [resolve_key env _ hrest, hcloses, if_neg (by simpa using hname), if_neg hname]
      simp [Except.map, Marked.escape]
  by_cases hname : variableName key = []
  · rw [if_pos hname] at hmark ⊢
    rw [expand, hmark]
  · rw [if_neg hname] at hmark ⊢
    exact expand_of_mark hmark (.inr rfl) fs

/-- Whatever is stored under a key is read back by a reference to it, in double quotes. -/
def ReadsBack (key : Text) : Prop :=
  ∀ env value after, (set key value).run env = .ok () after →
    ∀ fs, expand after fs (quotedReference key) = .ok [value.display]

/-- A text is a name exactly if it is not empty and the longest name at its start is the text. -/
theorem isVariableName_iff {key : Text} :
    IsVariableName key ↔ key ≠ [] ∧ variableName key = key := by
  rw [variableName, List.takeWhile_eq_self_iff]
  constructor
  · intro hname
    exact ⟨hname.ne_nil, hname.chars⟩
  · rintro ⟨hne, hchars⟩
    exact ⟨hne, hchars⟩

/-- A variable that can be set under a key is read back by a reference to it exactly if the key is a
name of ASCII letters, digits and underscores. -/
theorem readsBack_iff {key : Text} (h : isKeyValid key = true) :
    ReadsBack key ↔ IsVariableName key := by
  constructor
  · intro hreads
    refine isVariableName_iff.2 ⟨(isKeyValid_iff.1 h).1, ?_⟩
    by_contra hkey
    -- A variable with another name is not set, and the stored value is longer than what is literal
    -- in the word.
    have hexpand := hreads .empty (.string (afterName key ++ ['x'])) _ (run_set h _ _) .empty
    rw [expand_quotedKey h, getD, get?_store, if_neg hkey] at hexpand
    split at hexpand
    · cases hexpand
    · simp [Environment.empty, get?] at hexpand
  · intro hname env value after hset fs
    rw [run_set h] at hset
    injection hset with _ hafter
    rw [expand_quotedReference hname, ← hafter, getD, get?_store, if_pos rfl]
    rfl

theorem readsBack_iff_underscore :
    isKeyValid ['v', '_', '1'] = true ∧ ReadsBack ['v', '_', '1'] := by
  have hvalid : isKeyValid ['v', '_', '1'] = true := by decide
  have hname : IsVariableName ['v', '_', '1'] :=
    ⟨List.cons_ne_nil _ _, List.all_eq_true.1 (by decide)⟩
  exact ⟨hvalid, (readsBack_iff hvalid).2 hname⟩

/-- A variable can be set under a long s, but a dollar sign before it is followed by no name. -/
theorem not_readsBack_longS : isKeyValid ['\u017f'] = true ∧ ¬ReadsBack ['\u017f'] := by
  have hvalid : isKeyValid ['\u017f'] = true := by decide
  refine ⟨hvalid, fun hreads => ?_⟩
  have hexpand := hreads .empty (.string ['v']) _ (run_set hvalid _ _) .empty
  rw [expand_quotedKey hvalid, if_pos (by decide)] at hexpand
  cases hexpand

end Word

end MemShell
