import MemShell.Proofs.Path.Segments

/-!
# Reading paths in steps

A path may be read part by part: what stands before a slash can be resolved and written out first,
and what follows is then walked from there. So changing the directory in two steps or in one leads
to the same place. Main statement: fragments are read as names only, reading the written path again
gives the same names, and neither joining fragments nor going on from a directory depends on how
much of the way has been resolved before.
-/

namespace MemShell

namespace Path

/-- What stands before a slash may be resolved and written out before the rest is read. -/
theorem ofText_resolved (front back : Text) :
    ofText ((ofText front).toText ++ '/' :: back) = ofText (front ++ '/' :: back) := by
  have hparts : (ofText ((ofText front).toText ++ '/' :: back)).parts =
      (ofText (front ++ '/' :: back)).parts := by
    rw [parts_ofText_append, parts_ofText_append, parts_ofText_toText]
  refine eq_of_parts hparts ?_
  -- whether a slash stands at the end is decided behind the one in the middle
  rw [isDirectory_ofText, isDirectory_ofText, getLast?_append_slash, getLast?_append_slash, hparts]

/-- The names of fragments are those that the segments of all of them lead to from the root. -/
theorem parts_ofFragments (first : Text) (rest : List Text) :
    (ofFragments first rest).parts = resolve ((first :: rest).flatMap (Text.splitOn '/')) :=
  congrArg resolve (Text.splitOn_join_eq_flatMap (List.cons_ne_nil first rest))

/-- More fragments are read behind the first ones and a slash. -/
theorem ofFragments_append (first : Text) (rest : List Text) (next : Text) (others : List Text) :
    ofFragments first (rest ++ next :: others) =
      ofText (Text.join "/" (first :: rest) ++ '/' :: Text.join "/" (next :: others)) := by
  rw [ofFragments, ← List.cons_append,
    Text.join_append (List.cons_ne_nil first rest) (List.cons_ne_nil next others),
    List.append_assoc]
  rfl

/-- The first fragments may be resolved and written out before the others are joined to them. -/
theorem ofFragments_resolved (first : Text) (rest : List Text) (next : Text) (others : List Text) :
    ofFragments (ofFragments first rest).toText (next :: others) =
      ofFragments first (rest ++ next :: others) := by
  have hone := ofFragments_append (ofFragments first rest).toText [] next others
  rw [List.nil_append] at hone
  rw [hone, ofFragments_append, Text.join, ofFragments, ofText_resolved]

/-- What follows a first fragment is joined to it, behind the directory unless it is absolute. -/
theorem exists_interpret (cwd first : Text) :
    ∃ start rest, ∀ later, interpret cwd (first :: later) = ofFragments start (rest ++ later) := by
  by_cases h : first.head? = some '/'
  · exact ⟨first, [], fun later => by rw [interpret, if_pos h, List.nil_append]⟩
  · exact ⟨cwd, [first], fun later => by rw [interpret, if_neg h, List.singleton_append]⟩

/-- Going on from the directory that one fragment leads to is reading both fragments at once. -/
theorem interpret_resolved (cwd first : Text) {second : Text} (h : second.head? ≠ some '/') :
    interpret (interpret cwd [first]).toText [second] = interpret cwd [first, second] := by
  obtain ⟨start, rest, hstart⟩ := exists_interpret cwd first
  rw [interpret, if_neg h, hstart, hstart, List.append_nil, ofFragments_resolved]

/-- Fragments are read as the names that their segments lead to, none of them empty, one or two dots
or with a slash in it, and the written path has the same names when it is read again. Fragments that
come first may be resolved and written out before others are joined to them, and two changes of
directory, the second of which is not absolute, are the same as one. -/
theorem reads_in_steps :
    (∀ first rest,
      (ofFragments first rest).parts = resolve ((first :: rest).flatMap (Text.splitOn '/')) ∧
        (∀ part ∈ (ofFragments first rest).parts,
          part ≠ [] ∧ part ≠ ['.'] ∧ part ≠ ['.', '.'] ∧ '/' ∉ part) ∧
        (ofText (ofFragments first rest).toText).parts = (ofFragments first rest).parts) ∧
      (∀ first rest next others, ofFragments (ofFragments first rest).toText (next :: others) =
        ofFragments first (rest ++ next :: others)) ∧
      ∀ cwd first second : Text, second.head? ≠ some '/' →
        interpret (interpret cwd [first]).toText [second] = interpret cwd [first, second] := by
  refine ⟨fun first rest => ⟨?_, ?_, ?_⟩, ofFragments_resolved, fun cwd first second h => ?_⟩
  · exact parts_ofFragments first rest
  · exact (ofFragments first rest).valid
  · exact parts_ofText_toText (ofFragments first rest)
  · exact interpret_resolved cwd first h

theorem reads_in_steps_detour :
    (['.', '.', '/', '/', 'b', '/'] : Text).head? ≠ some '/' ∧
      interpret (interpret ['/', 'a'] [['c', '/', '.']]).toText [['.', '.', '/', '/', 'b', '/']] =
        interpret ['/', 'a'] [['c', '/', '.'], ['.', '.', '/', '/', 'b', '/']] ∧
      (interpret ['/', 'a'] [['c', '/', '.'], ['.', '.', '/', '/', 'b', '/']]).display =
        "Path('/a/b/')" := by
  have hrelative : (['.', '.', '/', '/', 'b', '/'] : Text).head? ≠ some '/' := by decide
  obtain ⟨-, -, hsteps⟩ := reads_in_steps
  exact ⟨hrelative, hsteps _ _ _ hrelative, by decide +kernel⟩

end Path

end MemShell
