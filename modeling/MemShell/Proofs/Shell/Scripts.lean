import MemShell.Proofs.Shell.Complaints
import MemShell.Proofs.Shell.Sequencing

/-!
# Scripts and their lines

A script is run line by line, each without the blanks at its ends. What is read from a line decides
what it does, up to what is logged, so a script does what its lines do as they are written, one
after the other, unless one of them is cut short by stripping it.
-/

namespace MemShell

namespace Shell

variable {shell other : Shell}

/-- Two shells that do the same from here on: they are in the same state and have the same commands,
all of them orderly. -/
structure Alike (shell other : Shell) : Prop extends SameState shell other where
  /-- The commands are the same. -/
  table : other.table = shell.table
  /-- All commands are orderly. -/
  orderly : shell.table.Orderly

/-- A shell is like itself. -/
theorem Alike.refl (h : shell.table.Orderly) : shell.Alike shell :=
  ⟨⟨⟨rfl, rfl, rfl, rfl⟩, rfl⟩, rfl, h⟩

/-- The commands stay the same when a line is executed. -/
theorem table_execute {streams : StreamSet} {line : Text} {code : Int} {after : Shell}
    (h : (execute streams line).run shell = .ok code after) : after.table = shell.table := by
  obtain ⟨log, hrun⟩ := shell.execute_aftermath streams line
  obtain ⟨-, rfl⟩ := of_result_ok (hrun.symm.trans h)
  rfl

/-- Lines that are read alike come to the same end. -/
theorem Alike.execute (h : shell.Alike other) (streams : StreamSet) {line written : Text}
    (hread : Token.reading line = Token.reading written) :
    SameEnd ((execute streams line).run shell) ((Shell.execute streams written).run other) := by
  obtain ⟨log, hline⟩ := shell.execute_aftermath streams line
  obtain ⟨reflected, hwritten⟩ := other.execute_aftermath streams written
  have hscene : other.entered written =
      (shell.entered line).withMemory (other.entered written).memory :=
    congrArg (Scene.mk · (other.entered written).memory) h.world.symm
  have hsame : other.table.lineAftermath streams (other.entered written) written =
      (shell.table.lineAftermath streams (shell.entered line) line).withMemory
        (other.entered written).memory := by
    rw [h.table, CommandTable.lineAftermath_congr hread, hscene]
    exact h.orderly.lineAftermath_withMemory streams written h.bindings
  have hkept := h.orderly.memory_lineAftermath streams (shell.entered line) line
  rw [hline, hwritten, hsame]
  refine sameEnd_result rfl (fun crash => h.orderly.breakdown_lineAftermath streams)
    ⟨rfl, ?_, ?_, congrArg (· && _) h.running⟩
  · exact (congrArg (·.bindings) hkept).trans h.bindings
  · exact (congrArg (·.notes) hkept).trans h.notes

/-- A single line is executed. -/
theorem executeAll_singleton (streams : StreamSet) (code : Int) (line : Text) :
    executeAll streams code [line] = execute streams line := bind_pure _

section Cons

variable {streams : StreamSet} {line : Text} {after : Shell}

/-- Behind a line that comes to its end the others are executed. -/
theorem executeAll_cons_ok {next : Int} (h : (execute streams line).run shell = .ok next after)
    (code : Int) (lines : List Text) :
    (executeAll streams code (line :: lines)).run shell =
      (executeAll streams next lines).run after :=
  bind_ok h

/-- Behind a line that breaks down nothing is executed. -/
theorem executeAll_cons_error {crash : Crash}
    (h : (execute streams line).run shell = .error crash after) (code : Int) (lines : List Text) :
    (executeAll streams code (line :: lines)).run shell = .error crash after :=
  bind_error h

end Cons

/-- Lists of lines that are read alike come to the same end. -/
theorem Alike.executeAll (h : shell.Alike other) (streams : StreamSet) (code : Int)
    {lines writtens : List Text}
    (hlines : List.Forall₂ (fun line written => Token.reading line = Token.reading written)
      lines writtens) :
    SameEnd ((executeAll streams code lines).run shell)
      ((Shell.executeAll streams code writtens).run other) := by
  induction hlines generalizing shell other code with
  | nil => exact .ok code h.toSameState
  | @cons line written lines writtens hread hrest ih =>
    have hfirst := h.execute streams hread
    generalize hline : (Shell.execute streams line).run shell = first,
      hwritten : (Shell.execute streams written).run other = reflection at hfirst
    cases hfirst with
    | ok code hstate =>
      have htable := (table_execute hwritten).trans (h.table.trans (table_execute hline).symm)
      rw [executeAll_cons_ok hline, executeAll_cons_ok hwritten]
      exact ih ⟨hstate, htable, table_execute hline ▸ h.orderly⟩ code
    | numeral error hmatches =>
      rw [executeAll_cons_error hline, executeAll_cons_error hwritten]
      exact .numeral error hmatches

/-! ## The lines of a script -/

/-- Whether a line holds a command: it has more than blanks, and the first other character is no
hash sign. -/
def holdsCommand (line : Text) : Bool := (line.find? fun c => !Text.isBlank c).any (· != '#')

/-- The lines of a script that hold commands, as they are written. -/
def commandLines (script : Text) : List Text := (Text.splitOn '\n' script).filter holdsCommand

/-- A stripped line starts with the first character that is not blank. -/
theorem head?_strip (line : Text) :
    (Text.strip line).head? = line.find? fun c => !Text.isBlank c := by
  rw [List.find?_not_eq_head?_dropWhile, Text.strip]
  cases hinner : line.dropWhile Text.isBlank with
  | nil => rfl
  | cons c rest =>
    have hc : Text.isBlank c = false := by
      have hhead := List.head?_dropWhile_not Text.isBlank line
      simpa [hinner] using hhead
    rw [List.reverse_cons, List.dropWhile_append]
    split <;> simp [hc]

/-- The lines that a script runs are its commands, stripped. -/
theorem scriptLines_eq (script : Text) :
    scriptLines script = (commandLines script).map Text.strip := by
  rw [scriptLines, commandLines, List.filter_map]
  refine congrArg _ (List.filter_congr fun line _ => ?_)
  rw [Function.comp_apply, holdsCommand, ← head?_strip]
  cases Text.strip line <;> rfl

/-- Lines that are not cut short do the same with and without the blanks at their ends. -/
theorem sameEnd_strip (h : shell.table.Orderly) (streams : StreamSet) (code : Int)
    {lines : List Text} (hlines : ∀ line ∈ lines, ¬Token.CutShort line) :
    SameEnd ((executeAll streams code (lines.map Text.strip)).run shell)
      ((executeAll streams code lines).run shell) := by
  refine (Alike.refl h).executeAll streams code ?_
  rw [List.forall₂_map_left_iff, List.forall₂_same]
  exact fun line hline => (Token.reading_strip_eq_iff line).2 (hlines line hline)

/-! ## Lines that are cut short -/

/-- The crier reports a line that is cut short without the blanks at its ends as one that ends in a
backslash. -/
theorem lineAftermath_strip_of_cutShort {line : Text} (h : Token.CutShort line)
    (table : CommandTable) (streams : StreamSet) (scene : Scene) :
    table.lineAftermath streams scene (Text.strip line) =
      .silent (.ok ExitCode.failure) (scene.writeLine streams.err LexError.trailingMessage) := by
  obtain ⟨error, herror, htrailing⟩ := h.trailing
  rw [CommandTable.lineAftermath, Token.split, herror,
    ← LexError.message_eq_trailingMessage_iff.2 htrailing]
  rfl

/-- A line that comes to the same end on the crier with and without the blanks at its ends is not
cut short. -/
theorem not_cutShort_of_sameEnd {line : Text}
    (h : SameEnd ((execute crier.streams (Text.strip line)).run crier)
      ((execute crier.streams line).run crier)) : ¬Token.CutShort line := by
  intro hcut
  obtain ⟨log, hstripped⟩ := crier.execute_aftermath crier.streams (Text.strip line)
  obtain ⟨reflected, hwritten⟩ := crier.execute_aftermath crier.streams line
  have hother : ∀ error, Token.tokenize line = .error error → LexError.Diverges error.message :=
    fun error herror => LexError.diverges_message (hcut.not_trailing herror)
  obtain ⟨-, text, htext, hquiet⟩ := @speaks_lineAftermath _ (fun _ htext => htext.append)
    (fun _ => id) (crier.entered line) rfl line hother
  rw [lineAftermath_strip_of_cutShort hcut] at hstripped
  rw [hstripped, result_ok rfl, hwritten] at h
  generalize hresult : crier.result _ reflected = written at h
  cases h with
  | ok code hstate =>
    obtain ⟨-, rfl⟩ := of_result_ok hresult
    have hsaid : LexError.trailingMessage ++ ['\n'] = text := by
      have hworld := congrArg (·.terminal.err) hstate.world
      exact hworld.trans htext
    rcases hquiet with rfl | hdiverges
    · simp at hsaid
    · exact hdiverges.ne_append _ hsaid

/-- A script comes to the same end as its lines do as they are written one after the other, in every
shell with orderly commands, and so does every run of lines in it, if and only if stripping cuts
none of them short. -/
theorem runScript_asWritten_iff (script : Text) :
    (∀ line ∈ commandLines script, ¬Token.CutShort line) ↔
      ∀ (shell : Shell) (streams : StreamSet), shell.table.Orderly →
        SameEnd ((runScript streams script).run shell)
            ((executeAll streams ExitCode.success (commandLines script)).run shell) ∧
          ∀ start count, SameEnd
            ((executeAll streams ExitCode.success
              (((scriptLines script).drop start).take count)).run shell)
            ((executeAll streams ExitCode.success
              (((commandLines script).drop start).take count)).run shell) := by
  rw [scriptLines_eq]
  constructor
  · intro hlines shell streams horderly
    refine ⟨?_, fun start count => ?_⟩
    · rw [runScript, scriptLines_eq]
      exact sameEnd_strip horderly streams ExitCode.success hlines
    · rw [← List.map_drop, ← List.map_take]
      exact sameEnd_strip horderly streams ExitCode.success fun line hline =>
        hlines line (List.mem_of_mem_drop (List.mem_of_mem_take hline))
  · intro hruns line hline
    obtain ⟨start, hstart, rfl⟩ := List.getElem_of_mem hline
    have hpart := (hruns crier crier.streams orderly_crier).2 start 1
    rw [← List.map_drop, ← List.map_take, List.drop_eq_getElem_cons hstart,
      List.take_succ_cons, List.take_zero, List.map_singleton, executeAll_singleton,
      executeAll_singleton] at hpart
    exact not_cutShort_of_sameEnd hpart

/-- The exit code of a run and what has been said on the console after it. -/
def spoken : EStateM.Result Crash Shell Int → Option (Int × Text)
  | .ok code shell => some (code, shell.world.terminal.err)
  | .error _ _ => none

/-- A script with a comment, blanks at the ends of its lines, and one of them in quotes. -/
def greeting : Text :=
  ['#', 'x', '\n', '\t', 'e', ' ', '\'', 'a', ' ', '\'', '\u2003', '\n', '\n', 'e', '\x0b', 'b',
    ' ']

theorem runScript_asWritten_iff_greeting :
    commandLines greeting = [['\t', 'e', ' ', '\'', 'a', ' ', '\'', '\u2003'],
        ['e', '\x0b', 'b', ' ']] ∧
      ∃ code after shadow, (runScript scribe.streams greeting).run scribe = .ok code after ∧
        (executeAll scribe.streams ExitCode.success (commandLines greeting)).run scribe =
          .ok code shadow ∧ after.SameState shadow := by
  have hlines : ∀ line ∈ commandLines greeting, (Text.strip line).getLast? ≠ some '\\' := by decide
  have hcut : ∀ line ∈ commandLines greeting, ¬Token.CutShort line :=
    fun line hline => Token.not_cutShort (hlines line hline)
  have hends : (spoken ((runScript scribe.streams greeting).run scribe)).isSome = true := by
    decide +kernel
  obtain ⟨hsame, -⟩ :=
    (runScript_asWritten_iff greeting).1 hcut scribe scribe.streams orderly_scribe
  refine ⟨by decide, ?_⟩
  generalize (runScript scribe.streams greeting).run scribe = first,
    (executeAll scribe.streams ExitCode.success (commandLines greeting)).run scribe = second
    at hsame hends ⊢
  cases hsame with
  | ok code hstate => exact ⟨code, _, _, rfl, rfl, hstate⟩
  | numeral => cases hends

/-- A line that ends in a blank behind a backslash. -/
def lostBlank : Text := ['e', 'c', 'h', 'o', ' ', 'a', '\\', ' ']

theorem runScript_lostBlank :
    spoken ((runScript crier.streams lostBlank).run crier) =
        some (ExitCode.failure, LexError.trailingMessage ++ ['\n']) ∧
      spoken ((executeAll crier.streams ExitCode.success (commandLines lostBlank)).run crier) =
        some (ExitCode.success, ['!']) := by
  decide +kernel

end Shell

end MemShell
