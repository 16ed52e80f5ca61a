import MemShell.Proofs.Command.Redirects
import MemShell.Proofs.Shell.Orderly
import MemShell.Proofs.Token.Trimming

/-!
# What a shell says about a line

Everything that a shell reports differs in its first words from the report that a line ends in a
backslash, except this report itself. A shell that reports on its console and whose only command
says something of its own there makes this visible: what a line that can be split says does not
start like the report on one that ends in a backslash.
-/

namespace MemShell

/-! ## Reports -/

namespace LexError

/-- Every report of a failing operation on files diverges. -/
theorem diverges_file (error : FileError) : Diverges error.fault.message.display := by
  cases error <;> exact ⟨0, _, 'U', rfl, rfl, by decide⟩

/-- Every report of a command that cannot be parsed diverges. -/
theorem diverges_parse {error : ParseError} (h : ∀ cause, error ≠ .lexical cause) :
    Diverges error.fault.message.display := by
  cases error with
  | lexical cause => exact absurd rfl (h cause)
  | word cause =>
    cases cause with
    | unopenedBrace => exact ⟨11, 'c', 'e', rfl, rfl, by decide⟩
    | unclosedGroup => exact ⟨2, 't', 'e', rfl, rfl, by decide⟩
    | missingName => exact ⟨0, 'M', 'U', rfl, rfl, by decide⟩
  | noMatch | groupedValue | missingTarget | ambiguousTarget =>
    exact ⟨0, _, 'U', rfl, rfl, by decide⟩

end LexError

/-- Expanding a word does not split anything. -/
theorem Word.expand_ne_lexical (env : Environment) (fs : FileSystem) (word : Text)
    (cause : LexError) : expand env fs word ≠ .error (.lexical cause) := by
  unfold expand
  split
  · simp
  · split
    · simp
    · split <;> simp

/-- Gathering tokens does not split anything. -/
theorem Gathered.ofTokens_ne_lexical {expand : Text → Except ParseError (List Text)}
    {cause : LexError} (hword : ∀ word, expand word ≠ .error (.lexical cause))
    (tokens : List Token) : ofTokens expand tokens ≠ .error (.refused (.lexical cause)) := by
  intro h
  fun_induction ofTokens expand tokens with
  | case1 => cases h
  | case2 value rest error herror =>
    cases h
    exact hword value herror
  | case3 value rest words hwords ih =>
    rcases error_of_bind h with h | ⟨gathered, h⟩
    · exact ih h
    · cases h
  | case4 digits mode target rest error herror =>
    cases h
    exact hword target herror
  | case6 digits mode target rest path hpath stream hstream ih =>
    rcases error_of_bind h with h | ⟨gathered, h⟩
    · exact ih h
    · cases h
  | case5 | case7 | case8 => cases h
  | case9 rest ih => exact ih h

/-- Parsing tokens does not split anything. -/
theorem Invocation.ofTokens_ne_lexical (env : Environment) (fs : FileSystem) (tokens : List Token)
    (cause : LexError) : ofTokens env fs tokens ≠ .error (.refused (.lexical cause)) := by
  intro h
  rw [ofTokens] at h
  cases hgathered : Gathered.ofTokens (Word.expand env fs) tokens with
  | error failure =>
    rw [hgathered] at h
    cases h
    exact Gathered.ofTokens_ne_lexical (Word.expand_ne_lexical env fs · cause) tokens hgathered
  | ok gathered =>
    cases hread : ofGathered gathered with
    | ok invocation => simp [hgathered, hread] at h
    | error error =>
      simp only [hgathered, hread, Except.error.injEq, ParseFailure.refused.injEq] at h
      subst h
      unfold ofGathered at hread
      split at hread
      · cases hread
      · split at hread <;> cases hread

/-! ## What is said on the console -/

/-- The shell of a world reports on the console, on the first handle. -/
def World.OnConsole (world : World) : Prop := world.endpoints[0]? = some (.console .err)

/-- A line comes to the console. -/
theorem World.OnConsole.writeLine {world : World} (h : world.OnConsole) (text : Text) :
    world.writeLine 0 text =
      { world with terminal := world.terminal.write (text ++ ['\n']) .err } := by
  rw [World.writeLine, World.write, h]

/-- A world that reports on the console has become another that does, and what has been said
meanwhile, if anything, is fine. -/
structure World.Speaks (fine : Text → Prop) (world after : World) : Prop where
  /-- Reports go to the console. -/
  onConsole : after.OnConsole
  /-- Nothing has been said, or something fine. -/
  said : ∃ text, after.terminal.err = world.terminal.err ++ text ∧ (text = [] ∨ fine text)

namespace World.Speaks

variable {fine : Text → Prop} {world middle after : World}

/-- Nothing is said if nothing happens to the console. -/
theorem quiet (honConsole : after.OnConsole) (hterminal : after.terminal = world.terminal) :
    world.Speaks fine after :=
  ⟨honConsole, [], by rw [hterminal, List.append_nil], .inl rfl⟩

/-- What is said first decides whether all of it is fine. -/
theorem trans (happend : ∀ text, fine text → ∀ rest, fine (text ++ rest))
    (h : world.Speaks fine middle) (hlater : middle.Speaks fine after) :
    world.Speaks fine after := by
  obtain ⟨-, text, htext, hfine⟩ := h
  obtain ⟨honConsole, rest, hrest, hlast⟩ := hlater
  refine ⟨honConsole, text ++ rest, by rw [hrest, htext, List.append_assoc], ?_⟩
  rcases hfine with rfl | hfine
  · exact hlast
  · exact .inr (happend text hfine rest)

/-- A line that is fine is said on the console. -/
theorem writeLine (h : world.OnConsole) {text : Text} (hfine : fine (text ++ ['\n'])) :
    world.Speaks fine (world.writeLine 0 text) := by
  rw [h.writeLine]
  exact ⟨h, text ++ ['\n'], rfl, .inr hfine⟩

end World.Speaks

section Courses

variable {fine : Text → Prop} (happend : ∀ text, fine text → ∀ rest, fine (text ++ rest))
  (hfine : ∀ text, LexError.Diverges text → fine text)

include happend

/-- Carrying out redirects says nothing. -/
theorem World.speaks_carryOut (cwd : Text) {world : World} (h : world.OnConsole)
    (streams : StreamSet) (redirects : List (Int × Redirect)) :
    world.Speaks fine (carryOut cwd world streams redirects).2 := by
  induction redirects generalizing world streams with
  | nil => exact .quiet h rfl
  | cons entry redirects ih =>
    rw [carryOut]
    cases hopen : FileSystem.openAt (entry.2.path cwd) entry.2.mode.openMode world.files with
    | error error files => exact .quiet h rfl
    | ok stream files =>
      have honConsole : (world.opened (entry.2.path cwd) entry.2.mode.openMode).OnConsole := by
        obtain ⟨hlength, -⟩ := List.getElem?_eq_some_iff.1 h
        rw [OnConsole, opened_ok hopen, List.getElem?_append_left hlength]
        exact h
      refine Speaks.trans happend (.quiet honConsole ?_) (ih honConsole _)
      rw [opened_ok hopen]

end Courses

/-! ## A shell with one command -/

namespace Shell

/-- A command that only says on the console that it was run. -/
def cry : Handler := fun _ _ memory world => ⟨.ok ExitCode.success,
  ⟨{ world with terminal := world.terminal.write ['!'] .err }, memory, false, []⟩⟩

/-- A shell that reports on the console and knows a single command, whatever its name. -/
def crier : Shell :=
  { (default : Shell) with
    world := { World.blank [] with endpoints := [.console .err] }
    table := ⟨.empty, some cry, fun _ => none⟩
    streams := ⟨0, 0, 0⟩ }

/-- The crier finds its command under every name. -/
theorem handler?_crier (memory : Memory) (name : Text) :
    crier.table.handler? memory name = some cry := by
  have hbound : crier.table.bound? memory name = none := Option.bind_fun_none _
  rw [CommandTable.handler?, hbound]
  rfl

/-- The command of the crier is orderly. -/
theorem orderly_crier : crier.table.Orderly := by
  intro memory name handler h
  cases (handler?_crier memory name).symm.trans h
  exact ⟨fun _ _ _ _ _ => rfl, fun _ _ _ _ _ houtcome => by cases houtcome⟩

variable {fine : Text → Prop} (happend : ∀ text, fine text → ∀ rest, fine (text ++ rest))
  (hfine : ∀ text, LexError.Diverges text → fine text)

include happend hfine

/-- A command of the crier says nothing, or something that diverges. -/
theorem speaks_aftermath {scene : Scene} (h : scene.world.OnConsole) (tokens : List Token) :
    scene.world.Speaks fine (crier.table.aftermath crier.streams scene tokens).scene.world := by
  have hreport {world : World} (hworld : world.OnConsole) {text : Text}
      (htext : LexError.Diverges text) : world.Speaks fine (world.writeLine 0 text) :=
    .writeLine hworld (happend _ (hfine _ htext) _)
  rw [CommandTable.aftermath, CommandTable.course]
  cases hparse : Invocation.ofTokens scene.world.environment scene.world.files tokens with
  | error failure =>
    cases failure with
    | numeral error => exact .quiet h rfl
    | refused error =>
      refine hreport h (LexError.diverges_parse ?_)
      rintro cause rfl
      exact Invocation.ofTokens_ne_lexical _ _ _ cause hparse
  | ok invocation =>
    have hopened := World.speaks_carryOut happend scene.world.environment.cwd h crier.streams
      invocation.redirects.entries
    dsimp only
    rw [CommandTable.invoked]
    generalize World.carryOut scene.world.environment.cwd scene.world crier.streams
      invocation.redirects.entries = carried at hopened
    obtain ⟨outcome, opened⟩ := carried
    cases outcome with
    | error error =>
      exact hopened.trans happend (hreport hopened.onConsole (LexError.diverges_file error))
    | ok own =>
      dsimp only
      rw [CommandTable.dispatched]
      cases invocation.command with
      | none => exact hopened
      | some name =>
        dsimp only
        rw [handler?_crier]
        refine hopened.trans happend ⟨hopened.onConsole, ['!'], rfl, .inr (hfine _ ?_)⟩
        exact ⟨0, '!', 'U', rfl, rfl, by decide⟩

/-- Commands of the crier say nothing, or something that diverges. -/
theorem speaks_foldl_next {before : Aftermath} (h : before.scene.world.OnConsole)
    (commands : List (List Token)) :
    before.scene.world.Speaks fine
      (commands.foldl (crier.table.next crier.streams) before).scene.world := by
  induction commands generalizing before with
  | nil => exact .quiet h rfl
  | cons tokens commands ih =>
    have hnext : before.scene.world.Speaks fine
        (crier.table.next crier.streams before tokens).scene.world := by
      rw [CommandTable.next]
      split
      · exact .quiet h rfl
      · exact speaks_aftermath happend hfine h tokens
    exact hnext.trans happend (ih hnext.onConsole)

/-- A line that is split, or refused with a fine message, says nothing on the console of the crier
or something fine. -/
theorem speaks_lineAftermath {scene : Scene} (h : scene.world.OnConsole) {line : Text}
    (hline : ∀ error, Token.tokenize line = .error error → fine error.message) :
    scene.world.Speaks fine (crier.table.lineAftermath crier.streams scene line).scene.world := by
  cases hline' : Token.tokenize line with
  | error error =>
    rw [CommandTable.lineAftermath, Token.split, hline']
    exact .writeLine h (happend _ (hline error hline') _)
  | ok tokens =>
    rw [CommandTable.lineAftermath_of_split (Token.split_of_tokenize hline')]
    exact @speaks_foldl_next _ happend hfine (.silent (.ok ExitCode.success) scene) h _

end Shell

end MemShell
