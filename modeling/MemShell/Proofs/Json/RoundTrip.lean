import MemShell.Proofs.Json.Distinct
import MemShell.Proofs.Json.Sorting
import MemShell.Proofs.Json.Strings
import MemShell.Proofs.Path.Segments

/-!
# Written values are read back

In a legible style there is nothing but blanks around the marks between items, and between names and
their values. Main statement: a value made of strings and of objects with distinct names is read
back from its written form in every legible style, with sorted names if the style sorts them.
-/

namespace MemShell.Json

/-! ## Styles -/

/-- Blanks stand around the marks of a style and nothing else. -/
structure Style.Legible (style : Style) : Prop where
  /-- A comma and blanks stand between items. -/
  item : ∃ blanks, style.itemSeparator = ',' :: blanks ∧ ∀ c ∈ blanks, isSpace c = true
  /-- A colon and blanks stand between a name and its value. -/
  key : ∃ blanks, style.keySeparator = ':' :: blanks ∧ ∀ c ∈ blanks, isSpace c = true
  /-- Levels are indented by blanks. -/
  step : ∀ step, style.indent = some step → ∀ c ∈ step, isSpace c = true

/-- A line break is made of blanks. -/
theorem Style.Legible.lineBreak {style : Style} (h : style.Legible) (depth : Nat) :
    ∀ c ∈ style.lineBreak depth, isSpace c = true := by
  intro c hc
  rw [Style.lineBreak] at hc
  split at hc
  · exact absurd hc List.not_mem_nil
  · next step hstep =>
    rcases List.mem_cons.1 hc with rfl | hc
    · rfl
    · obtain ⟨piece, hpiece, hc⟩ := List.mem_flatten.1 hc
      rw [(List.mem_replicate.1 hpiece).2] at hc
      exact h.step step hstep c hc

/-- Blanks are passed over. -/
theorem skipSpace_append {blanks : Text} (h : ∀ c ∈ blanks, isSpace c = true) (rest : Text) :
    skipSpace (blanks ++ rest) = skipSpace rest :=
  List.dropWhile_append_of_pos h

/-- Nothing is passed over before a character that is no blank. -/
theorem skipSpace_cons {c : Char} (h : isSpace c = false) (rest : Text) :
    skipSpace (c :: rest) = c :: rest :=
  List.dropWhile_cons_of_neg (by simp [h])

/-- Between two items a comma is met, and behind it the second item. -/
theorem Style.Legible.separator {style : Style} (h : style.Legible) {blanks text : Text}
    (hblanks : ∀ c ∈ blanks, isSpace c = true)
    (htext : ∃ c rest, text = c :: rest ∧ isSpace c = false) :
    ∃ next, skipSpace (style.itemSeparator ++ blanks ++ text) = ',' :: next ∧
      skipSpace next = text := by
  obtain ⟨mark, hmark, hmarked⟩ := h.item
  obtain ⟨c, rest, rfl, hc⟩ := htext
  rw [hmark]
  refine ⟨mark ++ blanks ++ c :: rest, skipSpace_cons rfl _, ?_⟩
  rw [skipSpace_append (List.forall_mem_append.2 ⟨hmarked, hblanks⟩), skipSpace_cons hc]

/-! ## Values -/

/-- A value made of strings and of objects with distinct names. -/
inductive Textual : Json → Prop
  /-- A string. -/
  | string (text : Text) : Textual (.string text)
  /-- An object of such values with distinct names. -/
  | object {fields : List (Text × Json)} (nodup : (Assoc.keys fields).Nodup)
    (inner : ∀ field ∈ fields, Textual field.2) : Textual (.object fields)

/-- The values of fields are sorted one by one. -/
theorem sortedFields_eq (fields : List (Text × Json)) :
    sortedFields fields = fields.map fun field => (field.1, field.2.sorted) := by
  induction fields with
  | nil => rw [sortedFields]; rfl
  | cons field fields ih => rw [sortedFields, ih]; rfl

/-- Sorting the names keeps them distinct. -/
theorem Textual.sorted {json : Json} (h : json.Textual) : json.sorted.Textual := by
  induction h with
  | string text => exact .string text
  | @object fields nodup inner ih =>
    rw [Json.sorted, sortedFields_eq]
    refine .object (nodup_keys_sortByName.2 ?_) fun field hfield => ?_
    · rw [Assoc.keys_map fun field : Text × Json => field.2.sorted]
      exact nodup
    · obtain ⟨origin, horigin, rfl⟩ := List.mem_map.1 (mem_sortByName.1 hfield)
      exact ih origin horigin

/-- A value is read back from its written form at a depth, whatever follows. -/
def ReadsBack (style : Style) (depth : Nat) (json : Json) : Prop :=
  ∀ fuel rest, (writeAt style depth json).length < fuel →
    value fuel (writeAt style depth json ++ rest) = .ok (json, rest)

section Reading

variable {style : Style}

/-- A written value starts with a character that is no blank. -/
theorem Textual.writeAt_eq {json : Json} (h : json.Textual) (style : Style) (depth : Nat) :
    ∃ c rest, writeAt style depth json = c :: rest ∧ isSpace c = false := by
  cases h with
  | string text =>
    rw [writeAt, writeString]
    exact ⟨_, _, rfl, rfl⟩
  | object nodup inner =>
    rw [writeAt, Style.enclose]
    split
    · exact ⟨_, _, rfl, rfl⟩
    · exact ⟨_, _, rfl, rfl⟩

/-- A string is read back. -/
theorem readsBack_string (depth : Nat) (text : Text) : ReadsBack style depth (.string text) := by
  intro fuel rest hfuel
  cases fuel with
  | zero => exact absurd hfuel (Nat.not_lt_zero _)
  | succ fuel =>
    rw [writeAt, writeString, List.append_assoc, List.append_assoc]
    change value (fuel + 1) ('"' :: (text.flatMap (escapeChar style.asciiOnly) ++ '"' :: rest)) = _
    rw [value, stringBody_flatMap]
    rfl

/-- The last field of an object is read up to the closing brace. -/
theorem members_last {fuel : Nat} {quoted rest body tail after name : Text} {item : Json}
    (hname : stringBody quoted = some (name, rest)) (hcolon : skipSpace rest = ':' :: body)
    (hvalue : value fuel (skipSpace body) = .ok (item, tail))
    (hclose : skipSpace tail = '\x7d' :: after) :
    members (fuel + 1) ('"' :: quoted) = .ok ([(name, item)], after) := by
  simp only [members, hname, hcolon, hvalue, hclose]

/-- A field with a comma behind it is read before the others. -/
theorem members_next {fuel : Nat} {quoted rest body tail next after name : Text} {item : Json}
    {fields : List (Text × Json)} (hname : stringBody quoted = some (name, rest))
    (hcolon : skipSpace rest = ':' :: body)
    (hvalue : value fuel (skipSpace body) = .ok (item, tail))
    (hcomma : skipSpace tail = ',' :: next)
    (hfields : members fuel (skipSpace next) = .ok (fields, after)) :
    members (fuel + 1) ('"' :: quoted) = .ok ((name, item) :: fields, after) := by
  simp only [members, hname, hcolon, hvalue, hcomma, hfields, Except.map]

/-- In a written field the name is met, then a colon, then the value. -/
theorem field_written (hstyle : style.Legible) {depth fuel : Nat} (name : Text) {item : Json}
    (hitem : item.Textual) (hread : ReadsBack style depth item)
    (hfuel : (writeAt style depth item).length < fuel) (tail : Text) :
    ∃ quoted rest body,
      writeString style.asciiOnly name ++ style.keySeparator ++ writeAt style depth item ++ tail =
        '"' :: quoted ∧ stringBody quoted = some (name, rest) ∧ skipSpace rest = ':' :: body ∧
      value fuel (skipSpace body) = .ok (item, tail) := by
  obtain ⟨blanks, hkey, hblanks⟩ := hstyle.key
  obtain ⟨c, written, hwritten, hc⟩ := hitem.writeAt_eq style depth
  have htext : writeString style.asciiOnly name ++ style.keySeparator ++
      writeAt style depth item ++ tail =
      '"' :: (name.flatMap (escapeChar style.asciiOnly) ++
        '"' :: (':' :: (blanks ++ (writeAt style depth item ++ tail)))) := by
    rw [writeString, hkey]
    simp
  have hskip : skipSpace (blanks ++ (writeAt style depth item ++ tail)) =
      writeAt style depth item ++ tail := by
    rw [skipSpace_append hblanks, hwritten]
    exact skipSpace_cons hc _
  refine ⟨_, _, _, htext, stringBody_flatMap _ _ _, skipSpace_cons rfl _, ?_⟩
  rw [hskip, hread fuel tail hfuel]

/-- Every field is written. -/
theorem writeFields_ne_nil (style : Style) (depth : Nat) {fields : List (Text × Json)}
    (h : fields ≠ []) : writeFields style depth fields ≠ [] := by
  cases fields with
  | nil => exact absurd rfl h
  | cons field fields =>
    rw [writeFields]
    exact List.cons_ne_nil _ _

/-- Written fields start with a quote. -/
theorem join_writeFields (style : Style) (depth : Nat) (separator : Text)
    {fields : List (Text × Json)} (h : fields ≠ []) :
    ∃ rest, Text.join separator (writeFields style depth fields) = '"' :: rest := by
  cases fields with
  | nil => exact absurd rfl h
  | cons field fields =>
    rw [writeFields, writeString]
    cases writeFields style depth fields with
    | nil => exact ⟨_, rfl⟩
    | cons next written => exact ⟨_, rfl⟩

/-- Written fields are read back up to the closing brace. -/
theorem members_join (hstyle : style.Legible) {depth : Nat} {blanks : Text}
    (hblanks : ∀ c ∈ blanks, isSpace c = true) {tail after : Text}
    (htail : skipSpace tail = '\x7d' :: after) {fields : List (Text × Json)} (hne : fields ≠ [])
    (hfields : ∀ field ∈ fields, field.2.Textual ∧ ReadsBack style depth field.2) (fuel : Nat)
    (hfuel : (Text.join (style.itemSeparator ++ blanks)
      (writeFields style depth fields)).length < fuel) :
    members fuel (Text.join (style.itemSeparator ++ blanks) (writeFields style depth fields) ++
      tail) = .ok (fields, after) := by
  induction fields generalizing fuel with
  | nil => exact absurd rfl hne
  | cons field fields ih =>
    -- one unit of fuel is used for each field, and at least a quote is written for it
    obtain ⟨name, item⟩ := field
    obtain ⟨⟨hitem, hread⟩, hrest⟩ := List.forall_mem_cons.1 hfields
    cases fuel with
    | zero => exact absurd hfuel (Nat.not_lt_zero _)
    | succ fuel =>
      by_cases hmore : fields = []
      · subst hmore
        rw [writeFields, writeFields, Text.join] at hfuel ⊢
        have hlength : (writeAt style depth item).length < fuel := by
          simp only [writeString, List.length_append, List.length_singleton] at hfuel
          omega
        obtain ⟨quoted, rest, body, htext, hname, hcolon, hvalue⟩ :=
          field_written hstyle name hitem hread hlength tail
        rw [htext]
        exact members_last hname hcolon hvalue htail
      · obtain ⟨written, hwritten⟩ :=
          join_writeFields style depth (style.itemSeparator ++ blanks) hmore
        rw [writeFields, Text.join_cons _ (writeFields_ne_nil style depth hmore)] at hfuel ⊢
        simp only [writeString, List.length_append, List.length_singleton] at hfuel
        have hlength : (writeAt style depth item).length < fuel := by omega
        have hstart : ∃ c rest, Text.join (style.itemSeparator ++ blanks)
            (writeFields style depth fields) ++ tail = c :: rest ∧ isSpace c = false :=
          ⟨'"', written ++ tail, by rw [hwritten]; rfl, rfl⟩
        obtain ⟨next, hnext, hskip⟩ := hstyle.separator hblanks hstart
        obtain ⟨quoted, rest, body, htext, hname, hcolon, hvalue⟩ :=
          field_written hstyle name hitem hread hlength (style.itemSeparator ++ blanks ++
            (Text.join (style.itemSeparator ++ blanks) (writeFields style depth fields) ++ tail))
        rw [List.append_assoc, List.append_assoc, htext]
        have hfields : members fuel (skipSpace next) = .ok (fields, after) := by
          rw [hskip]
          exact ih hmore hrest fuel (by omega)
        exact members_next hname hcolon hvalue hnext hfields

/-- An object is read back. -/
theorem readsBack_object (hstyle : style.Legible) (depth : Nat) {fields : List (Text × Json)}
    (hnodup : (Assoc.keys fields).Nodup)
    (hfields : ∀ field ∈ fields, field.2.Textual ∧ ReadsBack style (depth + 1) field.2) :
    ReadsBack style depth (.object fields) := by
  intro fuel rest hfuel
  cases fuel with
  | zero => exact absurd hfuel (Nat.not_lt_zero _)
  | succ fuel =>
    rw [writeAt, Style.enclose] at hfuel ⊢
    by_cases hne : fields = []
    · subst hne
      rw [writeFields]
      rfl
    · obtain ⟨written, hwritten⟩ := join_writeFields style (depth + 1)
        (style.itemSeparator ++ style.lineBreak (depth + 1)) hne
      have hnil : (writeFields style (depth + 1) fields).isEmpty = false :=
        List.isEmpty_eq_false_iff.2 (writeFields_ne_nil style (depth + 1) hne)
      have hclose : skipSpace (style.lineBreak depth ++ '\x7d' :: rest) = '\x7d' :: rest := by
        rw [skipSpace_append (hstyle.lineBreak depth)]
        exact skipSpace_cons rfl rest
      rw [hnil, if_neg Bool.false_ne_true] at hfuel ⊢
      simp only [List.length_append, List.length_singleton] at hfuel
      have hmembers := members_join hstyle (hstyle.lineBreak (depth + 1)) hclose hne hfields fuel
        (by omega)
      rw [hwritten] at hmembers ⊢
      have htext : ['\x7b'] ++ style.lineBreak (depth + 1) ++ '"' :: written ++
          style.lineBreak depth ++ ['\x7d'] ++ rest =
          '\x7b' :: (style.lineBreak (depth + 1) ++
            '"' :: (written ++ (style.lineBreak depth ++ '\x7d' :: rest))) := by
        simp
      rw [htext, value, skipSpace_append (hstyle.lineBreak (depth + 1)), skipSpace_cons (by rfl)]
      split
      · next hbrace => cases hbrace
      · rw [List.cons_append] at hmembers
        rw [hmembers]
        exact congrArg (fun kept => Except.ok (object kept, rest)) (Assoc.ofList_of_nodup hnodup)

/-- A value of strings and objects is read back. -/
theorem Textual.readsBack {json : Json} (h : json.Textual) (hstyle : style.Legible) (depth : Nat) :
    ReadsBack style depth json := by
  induction h generalizing depth with
  | string text => exact readsBack_string depth text
  | object nodup inner ih =>
    exact readsBack_object hstyle depth nodup fun field hfield =>
      ⟨inner field hfield, ih field hfield (depth + 1)⟩

/-- A whole text is read as the value that was written, with sorted names if the style sorts them.
-/
theorem Textual.parse?_write {json : Json} (h : json.Textual) (hstyle : style.Legible) :
    parse? (write style json) = some (if style.sortKeys then json.sorted else json) := by
  have hvalue : (if style.sortKeys then json.sorted else json).Textual := by
    split
    · exact h.sorted
    · exact h
  obtain ⟨c, rest, hwritten, hc⟩ := hvalue.writeAt_eq style 0
  have hread := hvalue.readsBack hstyle 0 _ [] (Nat.lt_succ_self _)
  rw [List.append_nil] at hread
  have hskip : skipSpace (write style json) = write style json := by
    rw [write, hwritten, skipSpace_cons hc]
  rw [parse?_eq_some_iff, parse, hskip]
  rw [write, hread]
  rfl

end Reading

end MemShell.Json
