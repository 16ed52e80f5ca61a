import MemShell.Command.Options
import MemShell.Proofs.Map.Assoc

/-!
# Reading options

The words of a command are options up to the first word that ends them. So reading more words only
goes on where the first ones left off: after an error or the end of the options nothing changes, and
otherwise the options of the other words overwrite those of the first.
-/

namespace MemShell

namespace Text

/-- A text without the mark is passed over on the way to it. -/
private theorem passes {mark : Char} {text : Text} (h : mark ∉ text) :
    ∀ c ∈ text, decide (c ≠ mark) = true := by
  intro c hc
  have hne : c ≠ mark := by
    rintro rfl
    exact h hc
  simpa using hne

/-- A cut is made at the first occurrence. -/
theorem cutAt_append {mark : Char} {front : Text} (h : mark ∉ front) (back : Text) :
    cutAt mark (front ++ mark :: back) = (front, some back) := by
  rw [cutAt, List.dropWhile_append_of_pos (passes h), List.takeWhile_append_of_pos (passes h)]
  simp

/-- A text without the mark is not cut. -/
theorem cutAt_of_not_mem {mark : Char} {text : Text} (h : mark ∉ text) :
    cutAt mark text = (text, none) := by
  have hdrop := @List.dropWhile_append_of_pos _ _ text [] (passes h)
  rw [List.append_nil, List.dropWhile_nil] at hdrop
  rw [cutAt, hdrop]

/-- A text that has been cut is the part in front, the mark and the part behind. -/
theorem eq_of_cutAt_some {mark : Char} {text front back : Text}
    (h : cutAt mark text = (front, some back)) : text = front ++ mark :: back ∧ mark ∉ front := by
  by_cases hmem : mark ∈ text
  · obtain ⟨first, rest, rfl, hfirst⟩ := List.eq_append_cons_of_mem hmem
    rw [cutAt_append hfirst] at h
    cases h
    exact ⟨rfl, hfirst⟩
  · rw [cutAt_of_not_mem hmem] at h
    cases h

/-- A text that has not been cut does not hold the mark. -/
theorem eq_of_cutAt_none {mark : Char} {text front : Text} (h : cutAt mark text = (front, none)) :
    text = front ∧ mark ∉ front := by
  by_cases hmem : mark ∈ text
  · obtain ⟨first, rest, rfl, hfirst⟩ := List.eq_append_cons_of_mem hmem
    rw [cutAt_append hfirst] at h
    cases h
  · rw [cutAt_of_not_mem hmem] at h
    cases h
    exact ⟨rfl, hmem⟩

end Text

namespace Options

/-! ## Words -/

/-- The part of a word in front of its first equals sign. -/
def key (word : Text) : Text := word.takeWhile (· ≠ '=')

/-- The name that a word gives: what comes in its key after two dashes or one. -/
def nameIn (word : Text) : Text :=
  match key word with
  | '-' :: '-' :: name => name
  | '-' :: name => name
  | _ => []

/-- A word that ends the options: there is a space in its key, or it gives no name that an option
can have. A word without a dash in front and two dashes alone give no name. -/
def EndsOptions (word : Text) : Prop := ' ' ∈ key word ∨ isName (nameIn word) = false

/-- A word that gives a value to several letters: behind one dash and in front of its first equals
sign there are two characters or more, no digit first and no space among them. -/
def ValuesGroup (word : Text) : Prop :=
  ∃ first second others value, word = '-' :: first :: second :: others ++ '=' :: value ∧
    first ≠ '-' ∧ Text.isDigit first = false ∧ '=' ∉ first :: second :: others ∧
    ' ' ∉ first :: second :: others

/-- A text that can be the key of an option. -/
structure IsKey (key : Text) : Prop where
  /-- There is a character. -/
  ne_nil : key ≠ []
  /-- An equals sign ends a key. -/
  noEquals : '=' ∉ key
  /-- A word with a space in its key gives no option. -/
  noSpace : ' ' ∉ key

/-- A word is cut after its key. -/
theorem key_of_cutAt {word front : Text} {value : Option Text}
    (h : Text.cutAt '=' word = (front, value)) : key word = front ∧ '=' ∉ front := by
  cases value with
  | none =>
    obtain ⟨rfl, hfree⟩ := Text.eq_of_cutAt_none h
    have htake := @List.takeWhile_append_of_pos _ _ word [] (Text.passes hfree)
    rw [List.append_nil, List.takeWhile_nil, List.append_nil] at htake
    exact ⟨htake, hfree⟩
  | some value =>
    obtain ⟨rfl, hfree⟩ := Text.eq_of_cutAt_some h
    refine ⟨?_, hfree⟩
    rw [key, List.takeWhile_append_of_pos (Text.passes hfree)]
    simp

/-- Whether a word gives a value to several letters is seen from its cut. -/
theorem valuesGroup_iff_of_cutAt {word front : Text} {value : Option Text}
    (h : Text.cutAt '=' word = (front, value)) :
    ValuesGroup word ↔ value.isSome ∧ ∃ first second others,
      front = '-' :: first :: second :: others ∧ first ≠ '-' ∧ Text.isDigit first = false ∧
        ' ' ∉ first :: second :: others := by
  constructor
  · rintro ⟨first, second, others, after, rfl, hdash, hdigit, hequals, hspace⟩
    have hfree : '=' ∉ '-' :: first :: second :: others := by
      rw [List.mem_cons, not_or]
      exact ⟨by decide, hequals⟩
    rw [Text.cutAt_append hfree] at h
    cases h
    exact ⟨rfl, first, second, others, rfl, hdash, hdigit, hspace⟩
  · rintro ⟨hvalue, first, second, others, rfl, hdash, hdigit, hspace⟩
    obtain ⟨after, rfl⟩ := Option.isSome_iff_exists.1 hvalue
    obtain ⟨rfl, hfree⟩ := Text.eq_of_cutAt_some h
    exact ⟨first, second, others, after, rfl, hdash, hdigit,
      List.not_mem_of_not_mem_cons hfree, hspace⟩

/-- What a word means where an option may stand. -/
def Means (word : Text) : WordClass → Prop
  | .argument => EndsOptions word
  | .terminator => EndsOptions word ∧ word = ['-', '-']
  | .settings pairs => ¬EndsOptions word ∧ ¬ValuesGroup word ∧ ∀ pair ∈ pairs, IsKey pair.1
  | .groupedValue => ¬EndsOptions word ∧ ValuesGroup word

section Means

variable {word name : Text} {value : Option Text}

/-- A word with two dashes in front ends the options or gives a long name. -/
private theorem classify_long (hcut : Text.cutAt '=' word = ('-' :: '-' :: name, value)) :
    classify word =
      if word = ['-', '-'] then .terminator
      else if ' ' ∈ name || !isName name then .argument
      else .settings [(name, value)] := by
  rw [classify, hcut]
  rfl

/-- A word with one dash in front gives a letter or several. -/
private theorem classify_short (hdash : name.head? ≠ some '-')
    (hcut : Text.cutAt '=' word = ('-' :: name, value)) :
    classify word =
      if ' ' ∈ name || !isName name then .argument
      else if name.length = 1 then .settings [(name, value)]
      else if value.isSome then .groupedValue
      else .settings (name.map fun c => ([c], none)) := by
  rw [classify, hcut]
  cases name with
  | nil => rfl
  | cons c name =>
    have hc : c ≠ '-' := by simpa using hdash
    simp [hc]

/-- A word without a dash in front is an argument. -/
private theorem classify_plain {front : Text} (hdash : front.head? ≠ some '-')
    (hcut : Text.cutAt '=' word = (front, value)) : classify word = .argument := by
  rw [classify, hcut]
  cases front with
  | nil => rfl
  | cons c front =>
    have hc : c ≠ '-' := by simpa using hdash
    simp [hc]

/-- The end of the options as it is seen from the name that a word gives. -/
private theorem endsOptions_iff_of_key (hkey : key word = '-' :: name)
    (hdash : name.head? ≠ some '-') : EndsOptions word ↔ ' ' ∈ name ∨ isName name = false := by
  cases name with
  | nil => simp [EndsOptions, nameIn, hkey]
  | cons c name =>
    have hc : c ≠ '-' := by simpa using hdash
    simp [EndsOptions, nameIn, hkey, hc]

/-- A name in which no space stands and that starts with no digit is the key of an option. -/
private theorem isKey_of_name (hfree : '=' ∉ name) (hspace : ' ' ∉ name)
    (hname : isName name = true) : IsKey name where
  ne_nil := by
    rintro rfl
    cases hname
  noEquals := hfree
  noSpace := hspace

/-- A word with two dashes in front means what it should. -/
private theorem means_long (hcut : Text.cutAt '=' word = ('-' :: '-' :: name, value)) :
    Means word (classify word) := by
  obtain ⟨hkey, hfree⟩ := key_of_cutAt hcut
  have hends : EndsOptions word ↔ ' ' ∈ name ∨ isName name = false := by
    simp [EndsOptions, nameIn, hkey]
  have hgroup : ¬ValuesGroup word := by
    rw [valuesGroup_iff_of_cutAt hcut]
    rintro ⟨-, first, second, others, heq, hdash, -⟩
    cases heq
    exact hdash rfl
  rw [classify_long hcut]
  by_cases hword : word = ['-', '-']
  · subst hword
    cases hcut
    exact ⟨hends.2 (.inr rfl), rfl⟩
  · rw [if_neg hword]
    split
    · next hbad => exact hends.2 (by simpa using hbad)
    · next hgood =>
      obtain ⟨hspace, hname⟩ : ' ' ∉ name ∧ isName name = true := by simpa using hgood
      have hequals := List.not_mem_of_not_mem_cons (List.not_mem_of_not_mem_cons hfree)
      exact ⟨by simp [hends, hspace, hname], hgroup,
        List.forall_mem_singleton.2 (isKey_of_name hequals hspace hname)⟩

/-- A word with one dash in front means what it should. -/
private theorem means_short (hdash : name.head? ≠ some '-')
    (hcut : Text.cutAt '=' word = ('-' :: name, value)) : Means word (classify word) := by
  obtain ⟨hkey, hfree⟩ := key_of_cutAt hcut
  have hends := endsOptions_iff_of_key hkey hdash
  have hequals := List.not_mem_of_not_mem_cons hfree
  rw [classify_short hdash hcut]
  split
  · next hbad => exact hends.2 (by simpa using hbad)
  · next hgood =>
    obtain ⟨hspace, hname⟩ : ' ' ∉ name ∧ isName name = true := by simpa using hgood
    have hgoes : ¬EndsOptions word := by simp [hends, hspace, hname]
    split
    · next hlength =>
      refine ⟨hgoes, ?_, List.forall_mem_singleton.2 (isKey_of_name hequals hspace hname)⟩
      rw [valuesGroup_iff_of_cutAt hcut]
      rintro ⟨-, first, second, others, heq, -⟩
      cases heq
      simp at hlength
    · next hlength =>
      split
      · next hvalue =>
        refine ⟨hgoes, (valuesGroup_iff_of_cutAt hcut).2 ⟨hvalue, ?_⟩⟩
        match name, hlength with
        | [], _ => cases hname
        | first :: second :: others, _ =>
          exact ⟨first, second, others, rfl, by simpa using hdash, by simpa [isName] using hname,
            hspace⟩
      · next hvalue =>
        refine ⟨hgoes, fun hgroup => hvalue ((valuesGroup_iff_of_cutAt hcut).1 hgroup).1, ?_⟩
        rintro _ hpair
        obtain ⟨c, hc, rfl⟩ := List.mem_map.1 hpair
        exact ⟨List.cons_ne_nil c [], fun h => hequals (List.mem_singleton.1 h ▸ hc),
          fun h => hspace (List.mem_singleton.1 h ▸ hc)⟩

/-- A word means what its class says. -/
theorem means_classify (word : Text) : Means word (classify word) := by
  cases hcut : Text.cutAt '=' word with
  | mk front value =>
    by_cases hdash : front.head? = some '-'
    · obtain ⟨name, rfl⟩ := List.head?_eq_some_iff.1 hdash
      by_cases hlong : name.head? = some '-'
      · obtain ⟨long, rfl⟩ := List.head?_eq_some_iff.1 hlong
        exact means_long hcut
      · exact means_short hlong hcut
    · rw [classify_plain hdash hcut]
      refine .inr ?_
      rw [nameIn, (key_of_cutAt hcut).1]
      cases front with
      | nil => rfl
      | cons c front =>
        have hc : c ≠ '-' := by simpa using hdash
        simp [hc, isName]

/-- A word that gives a value to several letters does not end the options. -/
theorem ValuesGroup.not_endsOptions (h : ValuesGroup word) : ¬EndsOptions word := by
  obtain ⟨first, second, others, after, rfl, hdash, hdigit, hequals, hspace⟩ := h
  have hfree : '=' ∉ '-' :: first :: second :: others := by
    rw [List.mem_cons, not_or]
    exact ⟨by decide, hequals⟩
  have hkey := (key_of_cutAt (Text.cutAt_append hfree after)).1
  rw [endsOptions_iff_of_key hkey (by simpa using hdash)]
  simp [hspace, isName, hdigit]

end Means

/-! ## Lists of words -/

section Words

variable {word : Text} {words rest : List Text} {options found : Options}

/-- Setting all options of a map in which pairs have been set is setting those of the map and then
the pairs. -/
theorem setAll_setAll (options stored : Options) (pairs : List (Text × Option Text)) :
    options.setAll (stored.setAll pairs).entries =
      (options.setAll stored.entries).setAll pairs := by
  refine OrderedMap.eq_of_entries ?_
  simp only [setAll, OrderedMap.entries_foldl_insert]
  exact Assoc.foldl_put_foldl_put stored.nodup pairs options.entries

/-- Reading on from other options overwrites them with what is read. -/
theorem readFrom_setAll (options stored : Options) (words : List Text) :
    readFrom (options.setAll stored.entries) words =
      (readFrom stored words).map fun found => (options.setAll found.1.entries, found.2) := by
  induction words generalizing stored with
  | nil => rfl
  | cons word words ih =>
    rw [readFrom, readFrom]
    cases classify word with
    | argument | terminator | groupedValue => rfl
    | settings pairs =>
      dsimp only
      rw [← setAll_setAll, ih]

/-- What is left after the options is the end of the words, and what has been set has the key of an
option. -/
theorem readFrom_ok (h : readFrom options words = .ok (found, rest)) :
    rest <:+ words ∧ ∀ key ∈ found.keys, key ∈ options.keys ∨ IsKey key := by
  induction words generalizing options with
  | nil =>
    cases h
    exact ⟨List.suffix_rfl, fun key hkey => .inl hkey⟩
  | cons word words ih =>
    have hmeans := means_classify word
    rw [readFrom] at h
    cases hclass : classify word <;> rw [hclass] at h hmeans
    case argument =>
      cases h
      exact ⟨List.suffix_rfl, fun key hkey => .inl hkey⟩
    case terminator =>
      cases h
      exact ⟨List.suffix_cons word _, fun key hkey => .inl hkey⟩
    case groupedValue => cases h
    case settings pairs =>
      obtain ⟨hrest, hkeys⟩ := ih h
      refine ⟨hrest.trans (List.suffix_cons word words), fun key hkey => ?_⟩
      refine (hkeys key hkey).elim (fun hset => ?_) .inr
      obtain ⟨pair, hpair, rfl⟩ := List.mem_map.1 hset
      rw [setAll, OrderedMap.entries_foldl_insert] at hpair
      exact (Assoc.mem_of_mem_foldl_put hpair).imp (fun hold => List.mem_map.2 ⟨pair, hold, rfl⟩)
        (hmeans.2.2 pair)

/-- A word that is reached gives a value to several letters. -/
def ReachesGroup (words : List Text) : Prop :=
  ∃ front word back, words = front ++ word :: back ∧ (∀ earlier ∈ front, ¬EndsOptions earlier) ∧
    ValuesGroup word

/-- The first word is reached, and the others unless the first one ends the options. -/
theorem reachesGroup_cons :
    ReachesGroup (word :: words) ↔ ValuesGroup word ∨ ¬EndsOptions word ∧ ReachesGroup words := by
  constructor
  · rintro ⟨front, group, back, heq, hfront, hgroup⟩
    cases front with
    | nil =>
      cases heq
      exact .inl hgroup
    | cons first front =>
      cases heq
      rw [List.forall_mem_cons] at hfront
      exact .inr ⟨hfront.1, front, group, back, rfl, hfront.2, hgroup⟩
  · rintro (hgroup | ⟨hends, front, group, back, rfl, hfront, hgroup⟩)
    · exact ⟨[], word, words, rfl, List.forall_mem_nil _, hgroup⟩
    · exact ⟨word :: front, group, back, rfl, List.forall_mem_cons.2 ⟨hends, hfront⟩, hgroup⟩

/-- Reading fails exactly if a word that is reached gives a value to several letters. -/
theorem exists_readFrom_error_iff :
    (∃ error, readFrom options words = .error error) ↔ ReachesGroup words := by
  induction words generalizing options with
  | nil => simp [readFrom, ReachesGroup]
  | cons word words ih =>
    have hmeans := means_classify word
    have hended (h : EndsOptions word) : ¬ValuesGroup word := fun hgroup => hgroup.not_endsOptions h
    rw [reachesGroup_cons, readFrom]
    cases hclass : classify word <;> rw [hclass] at hmeans
    case argument => simp [hended hmeans, show EndsOptions word from hmeans]
    case terminator => simp [hended hmeans.1, hmeans.1]
    case settings pairs => simp [hmeans.1, hmeans.2.1, ih]
    case groupedValue => simp [hmeans.2]

/-! ## More words -/

/-- Reading stopped at a word: there are words left, or the two dashes that end the options came
last and have been dropped. -/
def Stopped (words rest : List Text) : Prop :=
  rest ≠ [] ∨
    ∃ front, words = front ++ ['-', '-'] :: rest ∧ ∀ earlier ∈ front, ¬EndsOptions earlier

/-- Two dashes alone end the options. -/
theorem endsOptions_dashes : EndsOptions ['-', '-'] := .inr rfl

/-- A word that does not end the options is not where reading stopped. -/
theorem stopped_cons (h : ¬EndsOptions word) :
    Stopped (word :: words) rest ↔ Stopped words rest := by
  refine or_congr_right ⟨?_, ?_⟩
  · rintro ⟨front, heq, hfront⟩
    cases front with
    | nil =>
      cases heq
      exact absurd endsOptions_dashes h
    | cons first front =>
      cases heq
      exact ⟨front, rfl, (List.forall_mem_cons.1 hfront).2⟩
  · rintro ⟨front, rfl, hfront⟩
    exact ⟨word :: front, rfl, List.forall_mem_cons.2 ⟨h, hfront⟩⟩

/-- After an error more words make no difference. -/
theorem readFrom_append_error {error : Text} (h : readFrom options words = .error error)
    (more : List Text) : readFrom options (words ++ more) = .error error := by
  induction words generalizing options with
  | nil => cases h
  | cons word words ih =>
    rw [readFrom] at h
    rw [List.cons_append, readFrom]
    cases hclass : classify word <;> rw [hclass] at h
    case argument => cases h
    case terminator => cases h
    case settings pairs => exact ih h
    case groupedValue => exact h

/-- Where reading stopped, more words are left as they are. -/
theorem readFrom_append_of_stopped (h : readFrom options words = .ok (found, rest))
    (hstop : Stopped words rest) (more : List Text) :
    readFrom options (words ++ more) = .ok (found, rest ++ more) := by
  induction words generalizing options with
  | nil =>
    cases h
    rcases hstop with hrest | ⟨front, heq, -⟩
    · exact absurd rfl hrest
    · exact absurd heq (by simp)
  | cons word words ih =>
    have hmeans := means_classify word
    rw [readFrom] at h
    rw [List.cons_append, readFrom]
    cases hclass : classify word <;> rw [hclass] at h hmeans
    case argument =>
      cases h
      rfl
    case terminator =>
      cases h
      rfl
    case settings pairs => exact ih h ((stopped_cons hmeans.1).1 hstop)
    case groupedValue => cases h

/-- Where reading did not stop, nothing is left, and it goes on with the other words. -/
theorem readFrom_append_of_not_stopped (h : readFrom options words = .ok (found, rest))
    (hgo : ¬Stopped words rest) (more : List Text) :
    readFrom options (words ++ more) = readFrom found more := by
  induction words generalizing options with
  | nil =>
    cases h
    rfl
  | cons word words ih =>
    have hmeans := means_classify word
    rw [readFrom] at h
    rw [List.cons_append, readFrom]
    cases hclass : classify word <;> rw [hclass] at h hmeans
    case argument =>
      cases h
      exact absurd (.inl (List.cons_ne_nil word words)) hgo
    case terminator =>
      cases h
      exact absurd (.inr ⟨[], by rw [hmeans.2]; rfl, List.forall_mem_nil _⟩) hgo
    case settings pairs => exact ih h fun hstop => hgo ((stopped_cons hmeans.1).2 hstop)
    case groupedValue => cases h

end Words

/-- Options are read word by word. An error stays with more words, and so does the end of the
options, after which the other words are left as they are. Without an end the options of the other
words overwrite those of the first ones, whose keys keep their places. What is left is the end of
the words, what is set has the key of an option, and reading fails exactly if a word that is reached
gives a value to several letters. -/
theorem read_append (words more : List Text) :
    (∀ error, read words = .error error → read (words ++ more) = .error error) ∧
      (∀ options rest, read words = .ok (options, rest) → Stopped words rest →
        read (words ++ more) = .ok (options, rest ++ more)) ∧
      (∀ options rest, read words = .ok (options, rest) → ¬Stopped words rest →
        (∀ error, read more = .error error → read (words ++ more) = .error error) ∧
          ∀ others left, read more = .ok (others, left) → ∃ both : Options,
            read (words ++ more) = .ok (both, left) ∧
              both.entries =
                (options.entries.map fun entry =>
                  (entry.1, (others.get? entry.1).getD entry.2)) ++
                  others.entries.filter fun entry => !options.contains entry.1) ∧
      (∀ options rest, read words = .ok (options, rest) →
        rest <:+ words ∧ ∀ key ∈ options.keys, IsKey key) ∧
      ((∃ error, read words = .error error) ↔ ReachesGroup words) := by
  refine ⟨fun error h => readFrom_append_error h more,
    fun options rest h hstop => readFrom_append_of_stopped h hstop more, ?_, ?_,
    exists_readFrom_error_iff⟩
  · intro options rest h hgo
    have hon : read (words ++ more) =
        (read more).map fun found => (options.setAll found.1.entries, found.2) :=
      (readFrom_append_of_not_stopped h hgo more).trans (readFrom_setAll options .empty more)
    refine ⟨fun error herror => by rw [hon, herror]; rfl, fun others left hmore => ?_⟩
    exact ⟨options.setAll others.entries, by rw [hon, hmore]; rfl,
      options.entries_overwritten others⟩
  · intro options rest h
    obtain ⟨hrest, hkeys⟩ := readFrom_ok h
    exact ⟨hrest, fun key hkey => (hkeys key hkey).resolve_left List.not_mem_nil⟩

/-- A value for a letter, an option that is named by a dash, and a letter. -/
def firstWords : List Text := ["-a=1", "---", "-b"]

/-- Two letters, the end of the options, and an argument with a dash in front. -/
def moreWords : List Text := ["-ca", "--", "-d"]

theorem read_append_firstWords :
    ∃ both : Options, read (firstWords ++ moreWords) = .ok (both, [['-', 'd']]) ∧
      both.entries = [(['a'], none), (['-'], none), (['b'], none), (['c'], none)] := by
  have hgo : ¬Stopped firstWords [] := by
    rintro (hrest | ⟨front, heq, -⟩)
    · exact hrest rfl
    · have hlast := congrArg List.getLast? heq
      rw [List.getLast?_concat] at hlast
      exact absurd hlast (by decide)
  obtain ⟨-, -, hon, -⟩ := read_append firstWords moreWords
  exact (hon _ [] rfl hgo).2 _ _ rfl

end Options

end MemShell
