import MemShell.Proofs.Word.Parts

/-!
# References to variables

A word that is a reference to a variable, alone or in double quotes, stands for the value of the
variable and for nothing else, whatever blanks, wildcards, quotes or separators the value holds.
-/

namespace MemShell

namespace Word

/-- A name of a variable as it is written after a dollar sign. -/
structure IsVariableName (name : Text) : Prop where
  /-- The name is not empty. -/
  ne_nil : name ≠ []
  /-- Its characters are ASCII letters, digits and underscores. -/
  chars : ∀ c ∈ name, Environment.isNameChar c = true

/-- The word that stands for the value of a variable. -/
def reference (name : Text) : Text := '$' :: name

/-- The word that stands for the value of a variable, in double quotes. -/
def quotedReference (name : Text) : Text := '"' :: (reference name ++ ['"'])

section References

variable {name : Text} (h : IsVariableName name)

include h

/-- A name is read up to the first character that is in no name. -/
theorem variableName_append {rest : Text} (hrest : variableName rest = []) :
    variableName (name ++ rest) = name := by
  rw [variableName, List.takeWhile_append_of_pos h.chars]
  exact (congrArg (name ++ ·) hrest).trans (List.append_nil name)

/-- What follows a name starts with the first character that is in no name. -/
theorem afterName_append {rest : Text} (hrest : variableName rest = []) :
    afterName (name ++ rest) = rest := by
  have hsplit : variableName (name ++ rest) ++ afterName (name ++ rest) = name ++ rest :=
    List.takeWhile_append_dropWhile
  rw [variableName_append h hrest] at hsplit
  exact List.append_cancel_left hsplit

/-- Where variables are looked up, a reference stands for the value of its variable. -/
theorem resolve_reference (env : Environment) (word : Text) {groups : List Group}
    (hgroups : groups.head? ≠ some .single) {rest : Text} (hrest : variableName rest = []) :
    resolve env word groups (reference name ++ rest) =
      (resolve env word groups rest).map (Marked.escape (env.getD name []) ++ ·) := by
  have hname := variableName_append h hrest
  rw [reference, List.cons_append, resolve.eq_5 _ _ _ _ (by rintro outer rfl; exact hgroups rfl),
    hname, afterName_append h hrest, if_neg (by simpa using h.ne_nil)]

/-- A reference is marked as the value of its variable taken literally. -/
theorem mark_reference (env : Environment) :
    mark env (reference name) = .ok (Marked.escape (env.getD name [])) := by
  have hgroups : ([] : List Group).head? ≠ some .single := by simp
  have hname : variableName [] = [] := rfl
  have hresolve := resolve_reference h env (reference name) hgroups hname
  rw [List.append_nil] at hresolve
  rw [mark_eq_resolve env (by simp [reference]), hresolve]
  simp [resolve, Except.map]

/-- A reference in double quotes is marked as the value of its variable taken literally. -/
theorem mark_quotedReference (env : Environment) :
    mark env (quotedReference name) = .ok (Marked.escape (env.getD name [])) := by
  have hquote : Group.ofQuote? '"' = some .double := rfl
  have hgroups : ∀ top ∈ ([] : List Group).head?, top = .brace := by simp
  have hopens := resolve_open env (quotedReference name) (reference name ++ ['"']) hquote hgroups
  have hcloses : resolve env (quotedReference name) [.double] ['"'] = .ok [] := by
    simp [resolve, Group.opening, keptQuote, Except.map]
  rw [mark_eq_resolve env (by simp [quotedReference])]
  change resolve env (quotedReference name) [] ('"' :: (reference name ++ ['"'])) = _
  rw [hopens, resolve_reference h env _ (by simp) rfl, hcloses]
  simp [Except.map, keptQuote]

/-- A reference opens no group. -/
theorem opensGroup_reference : opensGroup (reference name) = false := by
  have hchars (text : Text) (htext : ∀ c ∈ text, Environment.isNameChar c = true) :
      opensGroup text = false := by
    induction text with
    | nil => rfl
    | cons c text ih =>
      obtain ⟨hc, hrest⟩ := List.forall_mem_cons.1 htext
      have hquote : Group.ofQuote? c = none :=
        Token.ofQuote?_eq_none (ne_of_isNameChar hc (by decide)) (ne_of_isNameChar hc (by decide))
      have hbrace : c ≠ '\x7b' := ne_of_isNameChar hc (by decide)
      have hslash : c ≠ '\\' := ne_of_isNameChar hc (by decide)
      rw [opensGroup]
      · simp [hquote, hbrace, ih hrest]
      · rintro d rest heq
        exact absurd heq hslash
  have hdollar : opensGroup (reference name) = opensGroup name := rfl
  rw [hdollar, hchars name h.chars]

/-- A reference in double quotes stands for the value of its variable alone. -/
theorem expand_quotedReference (env : Environment) (fs : FileSystem) :
    expand env fs (quotedReference name) = .ok [env.getD name []] :=
  expand_of_mark (mark_quotedReference h env) (.inr rfl) fs

/-- A reference stands for the value of its variable alone, and for nothing if the value is empty.
-/
theorem expand_reference (env : Environment) (fs : FileSystem) :
    expand env fs (reference name) =
      .ok (if env.getD name [] = [] then [] else [env.getD name []]) := by
  have hmark := mark_reference h env
  by_cases hvalue : env.getD name [] = []
  · rw [if_pos hvalue]
    rw [hvalue] at hmark
    simp [expand, hmark, Marked.escape, opensGroup_reference h]
  · rw [if_neg hvalue]
    exact expand_of_mark hmark (.inl hvalue) fs

end References

/-- Values never turn into wildcards and never split a word: what is put into a word is literal, a
reference in double quotes stands for exactly its value, and a reference alone stands for its value
unless that is empty. -/
theorem values_stay_literal :
    (∀ word, KeepsValuesLiteral word) ∧
      ∀ name, IsVariableName name → ∀ (env : Environment) value, env.get? name = some value →
        ∀ fs, expand env fs (quotedReference name) = .ok [value] ∧
          expand env fs (reference name) = .ok (if value = [] then [] else [value]) := by
  refine ⟨keepsValuesLiteral, fun name hname env value hvalue fs => ?_⟩
  have hget : env.getD name [] = value := by rw [Environment.getD, hvalue]; rfl
  have hquoted := expand_quotedReference hname env fs
  have hplain := expand_reference hname env fs
  rw [hget] at hquoted hplain
  exact ⟨hquoted, hplain⟩

/-- An environment in which a variable holds blanks, quotes, a marked wildcard and a separator. -/
def hostile : Environment :=
  ⟨⟨[(['v', '_', '1'], [' ', '\'', '"', '\x1b', '*', '$', '~', ';', '?'])], by decide⟩, []⟩

theorem values_stay_literal_hostile :
    IsVariableName ['v', '_', '1'] ∧
      hostile.get? ['v', '_', '1'] = some [' ', '\'', '"', '\x1b', '*', '$', '~', ';', '?'] ∧
      expand hostile .empty (quotedReference ['v', '_', '1']) =
        .ok [[' ', '\'', '"', '\x1b', '*', '$', '~', ';', '?']] ∧
      expand hostile .empty (reference ['v', '_', '1']) =
        .ok (if [' ', '\'', '"', '\x1b', '*', '$', '~', ';', '?'] = [] then []
          else [[' ', '\'', '"', '\x1b', '*', '$', '~', ';', '?']]) :=
  have hname : IsVariableName ['v', '_', '1'] :=
    ⟨List.cons_ne_nil _ _, List.all_eq_true.1 (by decide)⟩
  ⟨hname, by decide, values_stay_literal.2 _ hname hostile _ (by decide) .empty⟩

end Word

end MemShell
