import MemShell.Word.Marked

/-!
# Decoding marked text

An escaped text decodes to its own characters, none of them a wildcard, whatever follows it. A slash
is never part of a marked pair, so decoding commutes with cutting at slashes.
-/

namespace MemShell.Marked

/-- A character other than the marker stands for itself. -/
theorem decode_cons {c : Char} (h : c ≠ marker) (rest : Text) :
    decode (c :: rest) = ⟨c, false⟩ :: decode rest := by
  cases rest with
  | nil => simp [decode]
  | cons d rest => simp [decode, h]

@[simp] theorem unmark_nil : unmark [] = [] := rfl

@[simp] theorem hasWildcard_nil : hasWildcard [] = false := rfl

/-- Two markers stand for one. -/
theorem decode_marker_marker (rest : Text) :
    decode (marker :: marker :: rest) = ⟨marker, false⟩ :: decode rest := by
  have hm : isGlobChar marker = false := by decide
  simp [decode, hm]

/-- An escaped text decodes to its own characters, whatever follows it. -/
theorem decode_escape_append (text rest : Text) :
    decode (escape text ++ rest) = (text.map fun c => ⟨c, false⟩) ++ decode rest := by
  induction text with
  | nil => rfl
  | cons c text ih =>
    have hcons : escape (c :: text) ++ rest =
        (if c = marker then [marker, marker] else [c]) ++ (escape text ++ rest) := by
      simp [escape]
    rw [hcons]
    by_cases hc : c = marker
    · rw [if_pos hc, hc, List.cons_append, List.cons_append, List.nil_append,
        decode_marker_marker, ih]
      rfl
    · rw [if_neg hc, List.cons_append, List.nil_append, decode_cons hc, ih]
      rfl

/-- An escaped text decodes to its own characters. -/
theorem decode_escape (text : Text) : decode (escape text) = text.map fun c => ⟨c, false⟩ := by
  simpa [decode] using decode_escape_append text []

@[simp] theorem unmark_escape (text : Text) : unmark (escape text) = text := by
  simp [unmark, decode_escape, Function.comp_def]

@[simp] theorem hasWildcard_escape (text : Text) : hasWildcard (escape text) = false := by
  simp [hasWildcard, decode_escape]

/-- Texts that are each decoded whatever follows them are decoded one after the other. -/
theorem decode_flatMap {α : Type} {write : α → Text} {denoted : α → List Glyph}
    (h : ∀ part rest, decode (write part ++ rest) = denoted part ++ decode rest) (parts : List α) :
    decode (parts.flatMap write) = parts.flatMap denoted := by
  induction parts with
  | nil => rfl
  | cons part parts ih => rw [List.flatMap_cons, h, ih, List.flatMap_cons]

/-- A marked wildcard decodes to itself, whatever follows it. -/
theorem decode_wildcard_append {c : Char} (h : isGlobChar c = true) (rest : Text) :
    decode (wildcard c ++ rest) = ⟨c, true⟩ :: decode rest := by
  simp [wildcard, decode, h]

/-- Different texts are escaped differently. -/
theorem escape_injective {a b : Text} (h : escape a = escape b) : a = b := by
  rw [← unmark_escape a, h, unmark_escape]

/-- Escaping adds markers only. -/
theorem mem_escape {c : Char} (h : c ≠ marker) (text : Text) : c ∈ escape text ↔ c ∈ text := by
  simp only [escape, List.mem_flatMap]
  constructor
  · rintro ⟨d, hd, hc⟩
    split at hc
    · simp [h] at hc
    · rwa [List.mem_singleton.1 hc]
  · intro hc
    exact ⟨c, hc, by simp [h]⟩

/-- Decoding commutes with a cut at a slash. -/
theorem decode_append_slash (front back : Text) :
    decode (front ++ '/' :: back) = decode front ++ ⟨'/', false⟩ :: decode back := by
  have hslash : '/' ≠ marker := by decide
  have hglob : isGlobChar '/' = false := by decide
  fun_induction decode front with
  | case1 => exact decode_cons hslash back
  | case2 c => simp [decode, hglob, hslash, decode_cons hslash back]
  | case3 c d rest h ih => simp [decode, h, ih]
  | case4 c d rest hw h ih =>
    obtain ⟨rfl, rfl⟩ := h
    simp [decode_marker_marker, ih]
  | case5 c d rest hw hm ih =>
    rw [List.cons_append, List.cons_append, decode, if_neg hw, if_neg hm, ← List.cons_append, ih]
    rfl

@[simp] theorem unmark_append_slash (front back : Text) :
    unmark (front ++ '/' :: back) = unmark front ++ '/' :: unmark back := by
  simp [unmark, decode_append_slash]

@[simp] theorem hasWildcard_append_slash (front back : Text) :
    hasWildcard (front ++ '/' :: back) = (hasWildcard front || hasWildcard back) := by
  simp [hasWildcard, decode_append_slash]

/-- Only the empty text denotes the empty text. -/
theorem unmark_eq_nil_iff {text : Text} : unmark text = [] ↔ text = [] := by
  rw [unmark, List.map_eq_nil_iff]
  fun_cases decode text <;> simp

/-- Every character of the plain text stands in the marked text. -/
theorem mem_of_mem_unmark {c : Char} {text : Text} (h : c ∈ unmark text) : c ∈ text := by
  rw [unmark] at h
  fun_induction decode text with
  | case1 => exact h
  | case2 d => exact h
  | case3 d e rest hw ih => grind
  | case4 d e rest hw hm ih => grind
  | case5 d e rest hw hm ih => grind

end MemShell.Marked
