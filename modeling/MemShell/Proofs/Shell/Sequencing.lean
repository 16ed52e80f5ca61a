import MemShell.Proofs.Command.Written
import MemShell.Proofs.Shell.Orderly
import MemShell.Shell.Commands

/-!
# Lines in sequence

A line that is made of two lines with a separator between them is split into the commands of the one
and then those of the other. Every command starts from the scene that the one before it has left and
from the streams of the line, whether or not the one before it failed. So the line comes to the same
end as its two parts one after the other. Both go through all of their commands if and only if no
command comes to a redirect whose number is not read; behind such a command nothing runs.
-/

namespace MemShell

namespace CommandTable

variable {table : CommandTable} {streams : StreamSet}

/-- Commands that follow others come to what they come to on a line of their own in the world that
the others have left. -/
theorem Orderly.foldl_next_resumed (h : table.Orderly) {commands : List (List Token)}
    (hcommands : commands ≠ []) {before : Aftermath} {code : Int}
    (hbefore : before.outcome = .ok code) {scene : Scene}
    (hworld : scene.world = before.scene.world)
    (hbindings : scene.memory.bindings = before.scene.memory.bindings) :
    commands.foldl (table.next streams) before =
      ((commands.foldl (table.next streams) (.silent (.ok ExitCode.success) scene)).withMemory
        before.scene.memory).since before.stops := by
  obtain ⟨outcome, ⟨world, memory⟩, stops⟩ := before
  subst hworld hbefore
  have hresumed :
      ((Aftermath.silent (.ok ExitCode.success) scene).withMemory memory).since stops =
        ⟨.ok ExitCode.success, ⟨scene.world, memory⟩, stops⟩ := Aftermath.since_silent _ _ _
  rw [← h.foldl_next_withMemory streams commands _ memory hbindings, ← foldl_next_since, hresumed]
  -- The exit code before a command does not matter.
  cases commands with
  | nil => exact absurd rfl hcommands
  | cons tokens commands => rfl

section Joint

variable (h : table.Orderly) {first second : Text} {front back : List (List Token)}
  (hfirst : Token.split first = .ok front) (hsecond : Token.split second = .ok back)
  {scene : Scene} {memory : Memory} (hbindings : scene.memory.bindings = memory.bindings)

include h hfirst hsecond hbindings

/-- On a line of two parts the first does what it does on its own, and the commands of the second
follow. -/
theorem Orderly.lineAftermath_joint :
    table.lineAftermath streams (scene.withMemory memory) (first ++ ';' :: second) =
      back.foldl (table.next streams)
        ((table.lineAftermath streams scene first).withMemory memory) := by
  rw [lineAftermath_of_split (Token.split_append_separator hfirst hsecond), List.foldl_append,
    ← lineAftermath_of_split hfirst, h.lineAftermath_withMemory streams first hbindings]

/-- If the first part breaks down, nothing of the second follows. -/
theorem Orderly.lineAftermath_joint_of_error {crash : Crash}
    (hcrash : (table.lineAftermath streams scene first).outcome = .error crash) :
    table.lineAftermath streams (scene.withMemory memory) (first ++ ';' :: second) =
      (table.lineAftermath streams scene first).withMemory memory := by
  have hmoved : ((table.lineAftermath streams scene first).withMemory memory).outcome =
    .error crash := hcrash
  rw [h.lineAftermath_joint hfirst hsecond hbindings, foldl_next_error hmoved]

/-- Otherwise the second part does what it does on its own in the world that the first has left. -/
theorem Orderly.lineAftermath_joint_of_ok (hback : back ≠ []) {code : Int}
    (hcode : (table.lineAftermath streams scene first).outcome = .ok code) {later : Scene}
    (hworld : later.world = (table.lineAftermath streams scene first).scene.world)
    (hlater : later.memory.bindings = memory.bindings) :
    table.lineAftermath streams (scene.withMemory memory) (first ++ ';' :: second) =
      ((table.lineAftermath streams later second).withMemory memory).since
        (table.lineAftermath streams scene first).stops := by
  rw [h.lineAftermath_joint hfirst hsecond hbindings, lineAftermath_of_split hsecond]
  exact @Orderly.foldl_next_resumed _ _ h back hback
    ((table.lineAftermath streams scene first).withMemory memory) code hcode later hworld hlater

end Joint

end CommandTable

namespace Shell

variable {shell other : Shell} {streams : StreamSet}

/-- Two shells that differ at most in the entered lines, the last exit code and the log. -/
structure Matches (shell other : Shell) : Prop where
  /-- Variables, files, streams and the console are the same. -/
  world : shell.world = other.world
  /-- The same commands have been registered by handlers. -/
  bindings : shell.bindings = other.bindings
  /-- The notes of handlers are the same. -/
  notes : shell.notes = other.notes
  /-- Both ask for another line, or neither does. -/
  running : shell.running = other.running

/-- Two shells that differ at most in the lines that were entered and the log. -/
structure SameState (shell other : Shell) : Prop extends Matches shell other where
  /-- The exit code of the last line is the same. -/
  lastExit : shell.lastExit = other.lastExit

/-- Two runs come to the same end: to an exit code, or to a number that is not read. -/
inductive SameEnd : EStateM.Result Crash Shell Int → EStateM.Result Crash Shell Int → Prop
  /-- Both give the same exit code. -/
  | ok (code : Int) {after other : Shell} (h : after.SameState other) :
    SameEnd (.ok code after) (.ok code other)
  /-- Both end at the number of a redirect. -/
  | numeral (error : NumeralError) {after other : Shell} (h : after.Matches other) :
    SameEnd (.error error.crash after) (.error error.crash other)

/-- Lines with the same outcomes come to the same end in shells that match. -/
theorem sameEnd_result {after reflection : Aftermath} {log reflected : List LogEntry}
    (houtcome : after.outcome = reflection.outcome)
    (hnumeral : ∀ crash, after.outcome = .error crash → ∃ error : NumeralError, crash = error.crash)
    (hmatches :
      (shell.took (after.progress log)).Matches (other.took (reflection.progress reflected))) :
    SameEnd (shell.result after log) (other.result reflection reflected) := by
  rw [result, result, ← houtcome]
  cases hafter : after.outcome with
  | ok code => exact .ok code { hmatches with lastExit := rfl }
  | error crash =>
    obtain ⟨error, rfl⟩ := hnumeral crash hafter
    exact .numeral error hmatches

/-- The commands of two lines come to the same end one line after the other and on one line, if
there is a command in the second. -/
theorem sameEnd_append_separator (h : shell.table.Orderly) {first second : Text}
    {front back : List (List Token)} (hfirst : Token.split first = .ok front)
    (hsecond : Token.split second = .ok back) (hback : back ≠ []) :
    SameEnd ((execute streams first >>= fun _ => execute streams second).run shell)
      ((execute streams (first ++ ';' :: second)).run shell) := by
  obtain ⟨log, hrun⟩ := shell.execute_aftermath streams first
  obtain ⟨joined, hjoined⟩ := shell.execute_aftermath streams (first ++ ';' :: second)
  let scene := shell.entered first
  let memory := (shell.entered (first ++ ';' :: second)).memory
  let after := shell.table.lineAftermath streams scene first
  have hstart : shell.entered (first ++ ';' :: second) = scene.withMemory memory := rfl
  have hbindings : scene.memory.bindings = memory.bindings := rfl
  have hkept : after.scene.memory = scene.memory := h.memory_lineAftermath streams scene first
  rw [hstart] at hjoined
  cases houtcome : after.outcome with
  | error crash =>
    obtain ⟨error, rfl⟩ := h.breakdown_lineAftermath streams houtcome
    have hmoved : (after.withMemory memory).outcome = .error error.crash := houtcome
    have hsequence : (execute streams first >>= fun _ => execute streams second).run shell =
        .error error.crash (shell.took (after.progress log)) :=
      bind_error (hrun.trans (result_error houtcome log))
    rw [h.lineAftermath_joint_of_error hfirst hsecond hbindings houtcome,
      result_error hmoved] at hjoined
    rw [hsequence, hjoined]
    exact .numeral error ⟨rfl, congrArg (·.bindings) hkept, congrArg (·.notes) hkept, rfl⟩
  | ok code =>
    let middle : Shell := { shell.took (after.progress log) with lastExit := code }
    obtain ⟨reached, hnext⟩ := middle.execute_aftermath streams second
    have hsequence : (execute streams first >>= fun _ => execute streams second).run shell =
        (execute streams second).run middle := bind_ok (hrun.trans (result_ok houtcome log))
    have hworld : (middle.entered second).world = after.scene.world := rfl
    have hlater : (middle.entered second).memory.bindings = memory.bindings :=
      congrArg (·.bindings) hkept
    have hleft := h.memory_lineAftermath streams (middle.entered second) second
    rw [h.lineAftermath_joint_of_ok hfirst hsecond hbindings hback houtcome hworld
      hlater] at hjoined
    rw [hsequence, hnext, hjoined]
    refine sameEnd_result rfl (fun crash => h.breakdown_lineAftermath streams) ⟨rfl, ?_, ?_, ?_⟩
    · exact (congrArg (·.bindings) hleft).trans hlater
    · exact (congrArg (·.notes) hleft).trans (congrArg (·.notes) hkept)
    · exact (Bool.and_assoc _ _ _).trans (by rw [← Bool.not_or]; rfl)

/-- A line made of two lines with a separator between them comes to the same end as the two lines
one after the other, if there is a command in the second. Its commands take their turns, each in the
scene that the one before it has left and on the streams of the line, up to the first one that comes
to a redirect whose number is not read; a failing command does not stop the others. If there is no
such redirect, and only then, all commands run, and the last one decides on the exit code and on the
world. -/
theorem execute_append_separator (h : shell.table.Orderly) {first second : Text}
    {front back : List (List Token)} (hfirst : Token.split first = .ok front)
    (hsecond : Token.split second = .ok back) (hback : back ≠ []) :
    let turns := shell.table.turns streams (front ++ back)
      (shell.entered (first ++ ';' :: second))
    SameEnd ((execute streams first >>= fun _ => execute streams second).run shell)
        ((execute streams (first ++ ';' :: second)).run shell) ∧
      UpToBreakdown (front ++ back) turns ∧
      (∀ turn ∈ turns, ∀ breakdown, turn.breakdown? = some breakdown →
        ∃ error, turn.course = .unreadable error) ∧
      ((∃ firstCode middle code apart together last,
          (execute streams first).run shell = .ok firstCode middle ∧
          (execute streams second).run middle = .ok code apart ∧
          (execute streams (first ++ ';' :: second)).run shell = .ok code together ∧
          apart.SameState together ∧
          turns.map Turn.tokens = front ++ back ∧ turns.getLast? = some last ∧
          last.after.outcome = .ok code ∧ last.after.scene.world = together.world) ↔
        ∀ turn ∈ turns, ∀ error, turn.course ≠ .unreadable error) := by
  have hsame := @sameEnd_append_separator shell streams h _ _ _ _ hfirst hsecond hback
  have hcommands : commandsOf (first ++ ';' :: second) = front ++ back := by
    rw [commandsOf, Token.split_append_separator hfirst hsecond]
  obtain ⟨log, hrun⟩ := shell.execute_cases streams (first ++ ';' :: second)
  have hread := h.findSome?_breakdown_eq_none_iff streams (front ++ back)
    (shell.entered (first ++ ';' :: second))
  rw [hcommands] at hrun
  intro turns
  refine ⟨hsame, CommandTable.upToBreakdown_turns _ _,
    fun turn hturn breakdown hbreakdown => ?_, ?_⟩
  · obtain ⟨error, herror, -⟩ := h.breakdown_turns streams hturn hbreakdown
    exact ⟨error, herror⟩
  rw [← hread]
  rcases hrun with ⟨hnone, htokens, code, houtcome, htogether⟩ | ⟨breakdown, hsome, -, hbroken⟩
  · refine iff_of_true ?_ hnone
    have hne : turns ≠ [] := by
      intro hnil
      have htokens : turns.map Turn.tokens = front ++ back := htokens
      rw [hnil] at htokens
      exact hback (List.append_eq_nil_iff.1 htokens.symm).2
    have hfinal : turns.getLast? = some (turns.getLast hne) := List.getLast?_eq_some_getLast hne
    have hlast : (shell.table.turns streams (commandsOf (first ++ ';' :: second))
        (shell.entered (first ++ ';' :: second))).getLast? = some (turns.getLast hne) := by
      rw [hcommands]
      exact hfinal
    obtain ⟨hcode, hscene⟩ := CommandTable.lineAftermath_of_getLast? hlast
    rw [htogether] at hsame
    generalize hsequence : (execute streams first >>= fun _ => execute streams second).run shell =
      apart at hsame
    cases hsame with
    | @ok _ apart _ hstate =>
      obtain ⟨firstCode, middle, hmiddle, hapart⟩ := exists_ok_of_bind hsequence
      exact ⟨firstCode, middle, code, apart, _, _, hmiddle, hapart, htogether, hstate, htokens,
        hfinal, hcode.symm.trans houtcome, congrArg (·.world) hscene.symm⟩
  · refine iff_of_false ?_ ?_
    · rintro ⟨-, -, code, -, together, -, -, -, htogether, -⟩
      cases htogether.symm.trans hbroken
    · rw [hsome]
      exact Option.some_ne_none breakdown

/-- A shell on three buffers with a command that writes its arguments; all other commands fail. -/
def scribe : Shell :=
  { (default : Shell) with
    world := { World.blank [] with endpoints := List.replicate 3 (.stream (.buffer [])) }
    table := ⟨OrderedMap.empty.insert ['e'] Commands.echo, some Commands.fail, fun _ => none⟩
    streams := ⟨0, 1, 2⟩ }

/-- Writing arguments is orderly. -/
theorem orderly_echo : Handler.Orderly Commands.echo where
  memory _ _ _ _ _ := rfl
  reported _ _ _ _ _ h := by cases h

/-- Failing in a way that is reported is orderly. -/
theorem orderly_fail : Handler.Orderly Commands.fail where
  memory _ _ _ _ _ := rfl
  reported _ _ _ _ _ h := by cases h

/-- The commands of the scribe are orderly. -/
theorem orderly_scribe : scribe.table.Orderly := by
  intro memory name handler h
  rw [CommandTable.handler?, CommandTable.bound?, scribe, OrderedMap.get?_insert,
    OrderedMap.get?_empty, Option.bind_fun_none] at h
  by_cases hname : name = ['e']
  · rw [if_pos hname] at h
    cases h
    exact orderly_echo
  · rw [if_neg hname] at h
    cases h
    exact orderly_fail

theorem execute_append_separator_scribe :
    ∃ firstCode middle code apart together,
      (execute scribe.streams ['e', ' ', 'a', '>', 'f', ';', 'x']).run scribe =
        .ok firstCode middle ∧
      (execute scribe.streams ['e', ' ', 'b']).run middle = .ok code apart ∧
      (execute scribe.streams
          (['e', ' ', 'a', '>', 'f', ';', 'x'] ++ ';' :: ['e', ' ', 'b'])).run scribe =
        .ok code together ∧
      apart.SameState together := by
  have hfirst : Token.split ['e', ' ', 'a', '>', 'f', ';', 'x'] =
      .ok [[.word ['e'], .word ['a'], .redirect [] .write, .word ['f']], [.word ['x']]] := rfl
  have hsecond : Token.split ['e', ' ', 'b'] = .ok [[.word ['e'], .word ['b']]] := rfl
  obtain ⟨-, -, -, hread⟩ := @execute_append_separator scribe scribe.streams orderly_scribe _ _ _ _
    hfirst hsecond (by decide)
  have hnone : ((scribe.table.turns scribe.streams [[.word ['e'], .word ['a'], .redirect [] .write,
      .word ['f']], [.word ['x']], [.word ['e'], .word ['b']]] (scribe.entered
        (['e', ' ', 'a', '>', 'f', ';', 'x'] ++ ';' :: ['e', ' ', 'b']))).findSome?
          Turn.breakdown?).isNone = true := by decide +kernel
  have hnumbers := (orderly_scribe.findSome?_breakdown_eq_none_iff scribe.streams _ _).1
    (Option.isNone_iff_eq_none.1 hnone)
  obtain ⟨firstCode, middle, code, apart, together, -, hmiddle, hapart, htogether, hstate, -⟩ :=
    hread.2 hnumbers
  exact ⟨firstCode, middle, code, apart, together, hmiddle, hapart, htogether, hstate⟩

/-- A line on which a redirect has a number that is too long to be read. -/
def farLine (command : Text) : Text := command ++ ' ' :: (Invocation.longDigits ++ ['>', 'f'])

/-- Such a line is split into its words and the redirect. -/
theorem tokenize_farLine {command : Text} {tokens : List Token}
    (h : Token.tokenize command = .ok tokens) :
    Token.tokenize (farLine command) =
      .ok (tokens ++ [.redirect Invocation.longDigits .write, .word ['f']]) := by
  have hdigits : ∀ c ∈ Invocation.longDigits, c.isDigit = true := by
    intro c hc
    rw [List.eq_of_mem_replicate hc]
    rfl
  have hnumber : Text.isDecimal Invocation.longDigits = true :=
    Text.isDecimal_replicate (by decide) (by decide)
  have hredirect : Token.tokenize (Invocation.longDigits ++ ['>', 'f']) =
      .ok [.redirect Invocation.longDigits .write, .word ['f']] := by
    have hhead : ['f'].head? ≠ some '>' := by decide
    rw [Token.tokenize, Token.scan_digits hdigits, List.nil_append, Token.scan_write _ _ hhead,
      Token.ofRedirect, if_pos hnumber]
    rfl
  exact Token.tokenize_append_blank (by decide) h hredirect

/-- The command of such a line is not parsed. -/
theorem course_farLine {table : CommandTable} {scene : Scene} {command : Text}
    (hcommand : Word.expand scene.world.environment scene.world.files command = .ok [command])
    (htarget : Word.expand scene.world.environment scene.world.files ['f'] = .ok [['f']]) :
    table.course streams scene
        [.word command, .redirect Invocation.longDigits .write, .word ['f']] =
      .unreadable (.tooLong 4301) := by
  have hnumber : streamNumber Invocation.longDigits = .error (.tooLong 4301) :=
    streamNumber_replicate (by decide) (by decide)
  have hparse : Invocation.ofTokens scene.world.environment scene.world.files
      [.word command, .redirect Invocation.longDigits .write, .word ['f']] =
        .error (.numeral (.tooLong 4301)) := by
    refine Invocation.ofTokens_of_error ?_
    rw [Gathered.ofTokens, hcommand, Gathered.ofTokens_numeral htarget hnumber]
    rfl
  rw [CommandTable.course, hparse]

/-- On the line with a number that is too long to be read the error escapes, and the command behind
it does not run. -/
theorem execute_append_separator_longDigits :
    scribe.table.Orderly ∧
      Token.split (farLine ['e']) =
        .ok [[.word ['e'], .redirect Invocation.longDigits .write, .word ['f']]] ∧
      Token.split ['e', ' ', 'b'] = .ok [[.word ['e'], .word ['b']]] ∧
      ∃ together, (execute scribe.streams (farLine ['e'] ++ ';' :: ['e', ' ', 'b'])).run scribe =
          .error (NumeralError.tooLong 4301).crash together ∧
        together.world = scribe.world := by
  have hfirst : Token.split (farLine ['e']) =
      .ok [[.word ['e'], .redirect Invocation.longDigits .write, .word ['f']]] :=
    Token.split_of_tokenize (tokenize_farLine (rfl : Token.tokenize ['e'] = .ok [.word ['e']]))
  have hsecond : Token.split ['e', ' ', 'b'] = .ok [[.word ['e'], .word ['b']]] := rfl
  refine ⟨orderly_scribe, hfirst, hsecond, ?_⟩
  obtain ⟨log, hrun⟩ :=
    scribe.execute_aftermath scribe.streams (farLine ['e'] ++ ';' :: ['e', ' ', 'b'])
  have hcommand : Word.expand scribe.world.environment scribe.world.files ['e'] = .ok [['e']] := by
    decide +kernel
  have htarget : Word.expand scribe.world.environment scribe.world.files ['f'] = .ok [['f']] := by
    decide +kernel
  rw [CommandTable.lineAftermath_of_split (Token.split_append_separator hfirst hsecond),
    List.singleton_append,
    CommandTable.foldl_next_unreadable rfl (course_farLine hcommand htarget)] at hrun
  exact ⟨_, hrun, rfl⟩

end Shell

end MemShell
