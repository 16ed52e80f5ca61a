import MemShell.Proofs.Path.Segments
import MemShell.Proofs.Word.Decoding

/-!
# Marked text put together

Marked text is put together from texts taken literally and from wildcards. Main statement: where one
piece ends and the next begins can always be told. What is put together decodes to the characters of
its pieces, in order and with exactly the wildcards among them flagged; and a cut at slashes, of any
marked text whatever, can be made before decoding or after it.
-/

namespace MemShell.Marked

/-- A piece that marked text is put together from. -/
inductive Piece
  /-- A text taken literally. -/
  | literal (text : Text)
  /-- A wildcard. -/
  | wildcard (c : Char) (isGlobChar : isGlobChar c = true)

namespace Piece

/-- A piece as marked text. -/
def marked : Piece → Text
  | literal text => escape text
  | wildcard c _ => Marked.wildcard c

/-- The characters of a piece. -/
def text : Piece → Text
  | literal text => text
  | wildcard c _ => [c]

/-- Whether a piece is a wildcard. -/
def isWildcard : Piece → Bool
  | literal _ => false
  | wildcard .. => true

/-- What a piece denotes: its characters, flagged exactly if the piece is a wildcard. -/
def glyphs (piece : Piece) : List Glyph := piece.text.map fun c => ⟨c, piece.isWildcard⟩

/-- Pieces put together as marked text. -/
def assemble (pieces : List Piece) : Text := pieces.flatMap marked

/-- A piece decodes to what it denotes, whatever follows it. -/
theorem decode_marked (piece : Piece) (rest : Text) :
    decode (piece.marked ++ rest) = piece.glyphs ++ decode rest := by
  cases piece with
  | literal text => exact decode_escape_append text rest
  | wildcard c h => exact decode_wildcard_append h rest

/-- Pieces that are put together decode one after the other. -/
theorem decode_assembled (pieces : List Piece) :
    decode (assemble pieces) = pieces.flatMap glyphs :=
  decode_flatMap decode_marked pieces

/-- The plain text of pieces that are put together. -/
theorem unmark_assembled (pieces : List Piece) :
    unmark (assemble pieces) = pieces.flatMap text := by
  have hchars (piece : Piece) : piece.glyphs.map Glyph.char = piece.text := by
    simp [glyphs, Function.comp_def]
  rw [unmark, decode_assembled, List.map_flatMap]
  simp only [hchars]

/-- There is a wildcard among the glyphs of a piece exactly if the piece is one. -/
theorem any_glyphs (piece : Piece) : piece.glyphs.any Glyph.isWildcard = piece.isWildcard := by
  cases piece with
  | literal text => simp [glyphs, isWildcard]
  | wildcard c h => rfl

/-- Pieces that are put together hold a wildcard exactly if one of them is a wildcard. -/
theorem hasWildcard_assembled (pieces : List Piece) :
    hasWildcard (assemble pieces) = true ↔ ∃ piece ∈ pieces, piece.isWildcard = true := by
  rw [hasWildcard, decode_assembled, List.any_flatMap]
  simp only [any_glyphs, List.any_eq_true]

end Piece

/-! ## Cuts at slashes -/

/-- A slash as a glyph. -/
def slash : Glyph := ⟨'/', false⟩

/-- A slash among the glyphs stands in the marked text. -/
theorem slash_not_mem_decode {text : Text} (h : '/' ∉ text) : slash ∉ decode text := by
  intro hmem
  exact h (mem_of_mem_unmark (List.mem_map_of_mem hmem))

/-- Segments that are joined with slashes are cut apart again after decoding. -/
theorem splitOn_decode_join {segments : List Text} (hne : segments ≠ [])
    (h : ∀ segment ∈ segments, '/' ∉ segment) :
    (decode (Text.join ['/'] segments)).splitOn slash = segments.map decode := by
  induction segments with
  | nil => exact absurd rfl hne
  | cons segment rest ih =>
    obtain ⟨hsegment, hrest⟩ := List.forall_mem_cons.1 h
    have hslash := slash_not_mem_decode hsegment
    by_cases hlast : rest = []
    · subst hlast
      exact List.splitOn_eq_singleton hslash
    · rw [Text.join_cons segment hlast, List.append_assoc, List.singleton_append,
        decode_append_slash]
      exact (List.splitOn_append_cons_self_of_not_mem hslash _).trans
        (congrArg (decode segment :: ·) (ih hlast hrest))

/-- A cut at slashes can be made before decoding or after it. -/
theorem splitOn_decode (text : Text) :
    (decode text).splitOn slash = (Text.splitOn '/' text).map decode := by
  have hjoined := splitOn_decode_join (Text.splitOn_ne_nil '/' text)
    fun segment hsegment => Text.separator_not_mem_of_mem_splitOn hsegment
  rwa [Text.join_splitOn] at hjoined

/-- Marked text can be decoded in one way only. Escaped texts and marked wildcards that are put
together, whatever characters the texts hold, decode to the characters of the pieces in order, with
exactly the wildcards flagged; the plain text is that of the pieces, and a wildcard is found exactly
if one of the pieces is a wildcard. And for every marked text a cut at slashes commutes with
decoding. -/
theorem uniquely_decodable :
    (∀ pieces : List Piece,
      decode (Piece.assemble pieces) = pieces.flatMap Piece.glyphs ∧
        unmark (Piece.assemble pieces) = pieces.flatMap Piece.text ∧
        (hasWildcard (Piece.assemble pieces) = true ↔
          ∃ piece ∈ pieces, piece.isWildcard = true)) ∧
      ∀ text : Text, (decode text).splitOn slash = (Text.splitOn '/' text).map decode := by
  refine ⟨fun pieces => ⟨?_, ?_, ?_⟩, splitOn_decode⟩
  · exact Piece.decode_assembled pieces
  · exact Piece.unmark_assembled pieces
  · exact Piece.hasWildcard_assembled pieces

end MemShell.Marked
