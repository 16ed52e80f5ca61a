import MemShell.Command.Parser
import MemShell.Proofs.Token.Composition
import MemShell.Proofs.Word.Decoding
import MemShell.Proofs.Word.Resolving

/-!
# Quoted words

Every text can be written as a word that stands for it: a character with a meaning of its own is
written behind a backslash, and any other between single quotes. The word is one token, and no
variable, wildcard or tilde in it is resolved.
-/

namespace MemShell.Word

/-- A character as a part of a word that stands for it. -/
def quoteChar (c : Char) : Text := if c ∈ escapable then ['\\', c] else ['\'', c, '\'']

/-- A text as a word that stands for it. -/
def quote (text : Text) : Text := if text = [] then ['\'', '\''] else text.flatMap quoteChar

/-- A character that a backslash does not make literal has no meaning inside single quotes. -/
private theorem ne_of_not_mem_escapable {c d : Char} (h : c ∉ escapable) (hd : d ∈ escapable) :
    c ≠ d := by
  rintro rfl
  exact h hd

section Scanning

open Token

/-- A quoted character is added to the word, whatever it is. -/
theorem scan_quoteChar (c : Char) (position : Nat) (current rest : Text) :
    scan position [] current (quoteChar c ++ rest) =
      scan (position + (quoteChar c).length) [] (current ++ quoteChar c) rest := by
  by_cases hc : c ∈ escapable
  · simp only [quoteChar, if_pos hc]
    exact scan_pair position [] current rest c
  · simp only [quoteChar, if_neg hc]
    have hs : c ≠ '\'' := ne_of_not_mem_escapable hc (by decide)
    have hstep : groupStep [.single] c = .keep [.single] := by
      have hd : c ≠ '"' := ne_of_not_mem_escapable hc (by decide)
      have hopen : c ≠ '\x7b' := ne_of_not_mem_escapable hc (by decide)
      have hclose : c ≠ '\x7d' := ne_of_not_mem_escapable hc (by decide)
      simp [groupStep, ofQuote?_eq_none hs hd, hopen, hclose]
    have hopens : groupStep [] '\'' = .keep [.single] := rfl
    have hcloses : groupStep [.single] '\'' = .keep [] := rfl
    have hbackslash : c ≠ '\\' := ne_of_not_mem_escapable hc (by decide)
    rw [List.cons_append, scan_keep _ _ _ _ (by decide) hopens, List.cons_append,
      scan_keep _ _ _ _ hbackslash hstep, List.cons_append,
      scan_keep _ _ _ _ (by decide) hcloses]
    simp

/-- Characters that are each written as a part of a word are added to it one after the other. -/
theorem scan_flatMap {write : Char → Text}
    (h : ∀ c position current rest, scan position [] current (write c ++ rest) =
      scan (position + (write c).length) [] (current ++ write c) rest)
    (text : Text) (position : Nat) (current : Text) :
    scan position [] current (text.flatMap write) =
      .ok (ofCurrent (current ++ text.flatMap write)) := by
  induction text generalizing position current with
  | nil => simp [scan]
  | cons c text ih => rw [List.flatMap_cons, h, ih, List.append_assoc]

/-- Characters that are each written as a part of a word make up one word. -/
theorem tokenize_flatMap {write : Char → Text}
    (h : ∀ c position current rest, scan position [] current (write c ++ rest) =
      scan (position + (write c).length) [] (current ++ write c) rest)
    {text : Text} (hne : text.flatMap write ≠ []) :
    tokenize (text.flatMap write) = .ok [.word (text.flatMap write)] := by
  rw [tokenize, scan_flatMap h, List.nil_append, ofCurrent, if_neg (by simpa using hne)]

/-- A quoted text starts with a backslash or with a single quote. -/
theorem head?_quote (text : Text) :
    (quote text).head? = some '\\' ∨ (quote text).head? = some '\'' := by
  cases text with
  | nil => exact .inr rfl
  | cons c text =>
    simp only [quote, reduceCtorEq, ite_false, List.flatMap_cons, quoteChar]
    split
    · exact .inl rfl
    · exact .inr rfl

/-- A quoted text is not empty. -/
theorem quote_ne_nil (text : Text) : quote text ≠ [] := by
  intro h
  rcases head?_quote text with hq | hq <;> simp [h] at hq

/-- A quoted text is one word. -/
theorem tokenize_quote (text : Text) : tokenize (quote text) = .ok [.word (quote text)] := by
  have hne := quote_ne_nil text
  by_cases h : text = []
  · subst h
    rfl
  · rw [quote, if_neg h] at hne ⊢
    exact tokenize_flatMap scan_quoteChar hne

end Scanning

section Resolving

variable (env : Environment) (word : Text)

/-- A quoted character is resolved to itself. -/
theorem resolve_quoteChar (c : Char) (rest : Text) :
    resolve env word [] (quoteChar c ++ rest) =
      (resolve env word [] rest).map (Marked.escape [c] ++ ·) := by
  by_cases hc : c ∈ escapable
  · simp [quoteChar, hc, resolve, escaped]
  · have hb : c ≠ '\\' := ne_of_not_mem_escapable hc (by decide)
    have hs : c ≠ '\'' := ne_of_not_mem_escapable hc (by decide)
    have hv : c ≠ '$' := ne_of_not_mem_escapable hc (by decide)
    have hopens : resolve env word [] ('\'' :: c :: '\'' :: rest) =
        resolve env word [.single] (c :: '\'' :: rest) := by
      rw [resolve_open env word _ rfl (by simp)]
      exact map_nil_append _
    have hcloses : resolve env word [.single] ('\'' :: rest) = resolve env word [] rest := by
      rw [← map_nil_append (resolve env word [] rest)]
      exact resolve_close env word rest .single rfl []
    rw [quoteChar, if_neg hc, List.cons_append, List.cons_append, List.cons_append,
      List.nil_append, hopens, resolve_within env word _ .single rfl [] hb hs hv, hcloses]

/-- Characters that are each written as a part of a word are resolved one after the other. -/
theorem resolve_flatMap {write denoted : Char → Text}
    (h : ∀ c rest, resolve env word [] (write c ++ rest) =
      (resolve env word [] rest).map (Marked.escape (denoted c) ++ ·))
    (text : Text) :
    resolve env word [] (text.flatMap write) = .ok (Marked.escape (text.flatMap denoted)) := by
  induction text with
  | nil => simp [resolve, Marked.escape]
  | cons c text ih =>
    rw [List.flatMap_cons, List.flatMap_cons, h, ih]
    simp [Except.map, Marked.escape]

end Resolving

/-- A quoted text is marked as the text taken literally, in every environment. -/
theorem mark_quote (env : Environment) (text : Text) :
    mark env (quote text) = .ok (Marked.escape text) := by
  have htilde : (quote text).head? ≠ some '~' := by
    rcases head?_quote text with h | h <;> simp [h]
  rw [mark_eq_resolve env htilde]
  by_cases h : text = []
  · subst h
    simp [quote, resolve, Group.ofQuote?, Group.opening, Marked.escape, keptQuote, Except.map]
  · rw [quote, if_neg h, resolve_flatMap env _ (resolve_quoteChar env _), List.flatMap_singleton']

/-- A quoted empty text has a group in it. -/
theorem opensGroup_quote_nil : opensGroup (quote []) = true := rfl

/-- Nothing is searched for where nothing is a wildcard. -/
theorem glob_escape (fs : FileSystem) (cwd : Path) (text : Text) :
    Glob.expand? fs cwd (Marked.escape text) = some [Marked.escape text] := by
  simp [Glob.expand?, Glob.isSearched]

/-- A word that is marked as a literal text stands for that text alone, if it is not empty or has a
group in it. -/
theorem expand_of_mark {env : Environment} {word text : Text}
    (h : mark env word = .ok (Marked.escape text)) (hne : text ≠ [] ∨ opensGroup word = true)
    (fs : FileSystem) : expand env fs word = .ok [text] := by
  have hkept : ¬((Marked.escape text).isEmpty && !opensGroup word) = true := by
    rcases hne with hne | hne
    · cases text with
      | nil => exact absurd rfl hne
      | cons c text =>
        simp only [Marked.escape, List.flatMap_cons]
        split <;> simp
    · simp [hne]
  simp [expand, h, hkept, glob_escape]

/-- A quoted text stands for itself in every environment and every file system. -/
theorem expand_quote (env : Environment) (fs : FileSystem) (text : Text) :
    expand env fs (quote text) = .ok [text] := by
  refine expand_of_mark (mark_quote env text) ?_ fs
  by_cases h : text = []
  · exact .inr (h ▸ opensGroup_quote_nil)
  · exact .inl h

end MemShell.Word
