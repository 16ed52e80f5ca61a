import MemShell.Proofs.Shell.Sequencing
import MemShell.Shell.Interactive

/-!
# The interactive loop

A session is what a loop has done on the inputs that it has read: every line has been executed once
by the shell at its prompt, every interrupt has been answered without executing anything, and a
breakdown has been logged and shown. Main statement: the loop reads the inputs one after the other
up to the first line during whose execution the shell is asked to stop, or up to their end, and what
it does is a session. A breakdown makes no difference to whether the loop goes on, unless its error
cannot be shown, which ends the loop.
-/

namespace MemShell

/-- The line of an input. -/
def Input.line? : Input → Option Text
  | .line text => some text
  | .interrupt => none

/-- The execution of a line by a shell. -/
structure Execution where
  /-- The line. -/
  line : Text
  /-- The shell that executes the line. -/
  before : Shell
  /-- The shell that goes on. -/
  left : Shell

namespace Execution

variable (execution : Execution)

/-- The scene in which the line is run. -/
def scene : Scene := execution.before.entered execution.line

/-- The turns of the commands of the line. -/
def turns : List Turn :=
  execution.before.table.turns execution.before.streams (commandsOf execution.line) execution.scene

/-- What the line comes to. -/
def aftermath : Aftermath :=
  execution.before.table.lineAftermath execution.before.streams execution.scene execution.line

/-- Whether the shell is asked to stop. -/
def stops : Bool := execution.turns.any (·.after.stops)

/-- The breakdown that ends the line, if there is one. -/
def breakdown? : Option Breakdown := execution.turns.findSome? Turn.breakdown?

/-- The error that ends the line, if it cannot be shown. -/
def unshown? : Option Crash :=
  (execution.breakdown?.map Breakdown.crash).filter fun crash => crash.text.isNone

/-- The loop goes on behind the line: the shell is not asked to stop, and an error that ends the
line can be shown. -/
structure GoesOn : Prop where
  /-- The shell is not asked to stop. -/
  stops : execution.stops = false
  /-- An error that ends the line can be shown. -/
  unshown? : execution.unshown? = none

end Execution

/-- A line has been executed once, to its end or to an error that has been logged and shown, as far
as it can be shown. -/
inductive Executed (line : Text) (shell : Shell) : Shell → Prop
  /-- The line has come to its end. -/
  | done {code : Int} {after : Shell}
    (h : (Shell.execute shell.streams line).run shell = .ok code after) : Executed line shell after
  /-- An error has escaped. -/
  | recovered {crash : Crash} {after : Shell}
    (h : (Shell.execute shell.streams line).run shell = .error crash after) :
    Executed line shell (after.recovered crash)

/-- What a loop has done on inputs, with the executions of their lines. -/
inductive Session (prompt : Shell → Text) :
    Shell → List Input → List Execution → Shell → Prop
  /-- Nothing has been read. -/
  | nil (shell : Shell) : Session prompt shell [] [] shell
  /-- An interrupt is shown at the prompt. -/
  | interrupt {shell last : Shell} {inputs : List Input} {executions : List Execution}
    (hrest : Session prompt ((shell.prompted prompt).print "^C\n") inputs executions last) :
    Session prompt shell (.interrupt :: inputs) executions last
  /-- A line is executed by the shell at its prompt. -/
  | line {shell last : Shell} {inputs : List Input} {executions : List Execution}
    {execution : Execution} (hbefore : execution.before = shell.prompted prompt)
    (hdone : Executed execution.line execution.before execution.left)
    (hrest : Session prompt execution.left inputs executions last) :
    Session prompt shell (.line execution.line :: inputs) (execution :: executions) last

/-- What an execution comes to, by what becomes of the commands of its line. -/
structure Execution.Settled (execution : Execution) : Prop where
  /-- The commands of the line take their turns up to a breakdown. -/
  turns : UpToBreakdown (commandsOf execution.line) execution.turns
  /-- A command breaks down where the number of a redirect is not read, or with the error that
  escapes from its handler. -/
  breaks : ∀ turn ∈ execution.turns, ∀ breakdown, turn.breakdown? = some breakdown →
    (∃ error, turn.course = .unreadable error ∧ breakdown.crash = error.crash) ∨
      ∃ call, turn.course = .called call ∧ call.reply.outcome = .error (.crash breakdown.crash)
  /-- Without a breakdown all commands take their turns, and the line comes to its end. The world
  and the memory are as the turns have left them. With a breakdown they are as the command has left
  them that breaks down, and the error is logged and shown. -/
  outcome : match execution.breakdown? with
    | none => execution.turns.map Turn.tokens = commandsOf execution.line ∧
        ∃ code, execution.aftermath.outcome = .ok code ∧
          (Shell.execute execution.before.streams execution.line).run execution.before =
            .ok code execution.left ∧
          execution.left.world = execution.aftermath.scene.world ∧
          execution.left.toMemory = { execution.aftermath.scene.memory with lastExit := code }
    | some breakdown => ∃ after,
        (Shell.execute execution.before.streams execution.line).run execution.before =
            .error breakdown.crash after ∧
          after.world = breakdown.scene.world ∧ after.toMemory = breakdown.scene.memory ∧
          execution.left = after.recovered breakdown.crash
  /-- The shell goes on unless it has been asked to stop. -/
  running : execution.left.running = (execution.before.running && !execution.stops)
  /-- The commands stay the same. -/
  table : execution.left.table = execution.before.table
  /-- The streams stay the same. -/
  streams : execution.left.streams = execution.before.streams

/-! ## Executing a line -/

namespace Shell

/-- A shell that has recovered from an error goes on if it did before. -/
theorem running_recovered (crash : Crash) (shell : Shell) :
    (shell.recovered crash).running = shell.running := by
  rw [recovered]
  cases crash.text <;> rfl

/-- A shell that has recovered from an error has the same commands. -/
theorem table_recovered (crash : Crash) (shell : Shell) :
    (shell.recovered crash).table = shell.table := by
  rw [recovered]
  cases crash.text <;> rfl

/-- A shell that has recovered from an error has the same streams. -/
theorem streams_recovered (crash : Crash) (shell : Shell) :
    (shell.recovered crash).streams = shell.streams := by
  rw [recovered]
  cases crash.text <;> rfl

end Shell

/-- A line is answered by executing it once. An error that ends it and cannot be shown escapes. -/
theorem Shell.executed_answered (shell : Shell) (line : Text) :
    Executed line shell (shell.answered (.line line)).1 ∧
      (shell.answered (.line line)).2 =
        (Execution.mk line shell (shell.answered (.line line)).1).unshown? := by
  rw [Execution.unshown?, Execution.breakdown?, Execution.turns, Execution.scene]
  obtain ⟨log, ⟨hnone, -, code, -, hrun⟩ | ⟨breakdown, hsome, -, hrun⟩⟩ :=
    shell.execute_cases shell.streams line
  · rw [hnone, answered, hrun]
    exact ⟨.done hrun, rfl⟩
  · rw [hsome, answered, hrun]
    refine ⟨.recovered hrun, ?_⟩
    rw [Option.map_some, Option.filter_some]

/-- An execution comes to what the commands of its line come to. -/
theorem Executed.settled {line : Text} {before left : Shell} (h : Executed line before left) :
    Execution.Settled ⟨line, before, left⟩ := by
  have hturns : UpToBreakdown (commandsOf line)
      (before.table.turns before.streams (commandsOf line) (before.entered line)) :=
    CommandTable.upToBreakdown_turns _ _
  have hstops := @CommandTable.stops_lineAftermath before.table before.streams
    (before.entered line) line
  obtain ⟨log, ⟨hnone, htokens, code, houtcome, hrun⟩ | ⟨breakdown, hsome, hscene, hrun⟩⟩ :=
    before.execute_cases before.streams line
  · cases h with
    | recovered h => cases h.symm.trans hrun
    | done h =>
      cases h.symm.trans hrun
      refine ⟨hturns, fun turn hturn _ => CommandTable.breakdown_cases hturn, ?_,
        congrArg (before.running && !·) hstops, rfl, rfl⟩
      rw [Execution.breakdown?, Execution.turns, Execution.scene, hnone]
      exact ⟨htokens, code, houtcome, hrun, rfl, rfl⟩
  · cases h with
    | done h => cases h.symm.trans hrun
    | recovered h =>
      cases h.symm.trans hrun
      refine ⟨hturns, fun turn hturn _ => CommandTable.breakdown_cases hturn, ?_, ?_,
        Shell.table_recovered _ _, Shell.streams_recovered _ _⟩
      · rw [Execution.breakdown?, Execution.turns, Execution.scene, hsome]
        exact ⟨_, hrun, congrArg (·.world) hscene, congrArg (·.memory) hscene, rfl⟩
      · rw [Shell.running_recovered]
        exact congrArg (before.running && !·) hstops

/-! ## Sessions -/

namespace Session

variable {prompt : Shell → Text} {shell last : Shell} {inputs : List Input}
  {executions : List Execution}

/-- The lines of a session have been executed once each, in their order, and nothing else. -/
theorem map_line (h : Session prompt shell inputs executions last) :
    executions.map Execution.line = inputs.filterMap Input.line? := by
  induction h with
  | nil => rfl
  | interrupt hrest ih => exact ih
  | line hbefore hdone hrest ih => exact congrArg (List.cons _) ih

/-- Every execution of a session comes to what the commands of its line come to, and the shell has
the same commands and streams in all of them. -/
theorem settled (h : Session prompt shell inputs executions last) :
    ∀ execution ∈ executions, execution.Settled ∧ execution.before.table = shell.table ∧
      execution.before.streams = shell.streams := by
  induction h with
  | nil => exact fun _ h => absurd h List.not_mem_nil
  | interrupt hrest ih => exact ih
  | @line shell last inputs executions execution hbefore hdone hrest ih =>
    have htable : execution.before.table = shell.table := by rw [hbefore]; rfl
    have hstreams : execution.before.streams = shell.streams := by rw [hbefore]; rfl
    rw [hdone.settled.table, hdone.settled.streams, htable, hstreams] at ih
    exact List.forall_mem_cons.2 ⟨⟨hdone.settled, htable, hstreams⟩, ih⟩

end Session

/-- How a loop ends that has read some inputs and not read others. -/
inductive Ends (prompt : Shell → Text) (last : Shell) :
    List Input → List Execution → List Input → LoopEnd → Prop
  /-- The inputs have come to their end, and the loop has gone on behind every line. -/
  | atEnd (read : List Input) {executions : List Execution}
    (h : ∀ execution ∈ executions, execution.GoesOn) :
    Ends prompt last read executions [] ⟨(last.prompted prompt).ended, [], none⟩
  /-- The last line is the first one during whose execution the shell has been asked to stop. -/
  | atLine (front unread : List Input) {earlier : List Execution} {execution : Execution}
    (hearlier : ∀ execution ∈ earlier, execution.GoesOn) (h : execution.stops = true)
    (hshown : execution.unshown? = none) :
    Ends prompt last (front ++ [.line execution.line]) (earlier ++ [execution]) unread
      ⟨last, unread, none⟩
  /-- The last line is the first one that ends with an error that cannot be shown. -/
  | atError (front unread : List Input) {earlier : List Execution} {execution : Execution}
    (hearlier : ∀ execution ∈ earlier, execution.GoesOn) {crash : Crash}
    (h : execution.unshown? = some crash) :
    Ends prompt last (front ++ [.line execution.line]) (earlier ++ [execution]) unread
      ⟨last, unread, some crash⟩

namespace Ends

variable {prompt : Shell → Text} {last : Shell} {read unread : List Input}
  {executions : List Execution} {result : LoopEnd}

/-- It does not matter how often there was an interrupt before. -/
theorem interrupt (h : Ends prompt last read executions unread result) :
    Ends prompt last (.interrupt :: read) executions unread result := by
  cases h with
  | atEnd _ hall => exact .atEnd _ hall
  | atLine front _ hearlier hstops hshown =>
    exact .atLine (.interrupt :: front) unread hearlier hstops hshown
  | atError front _ hearlier hunshown =>
    exact .atError (.interrupt :: front) unread hearlier hunshown

/-- It does not matter what has been executed before, as long as the loop goes on. -/
theorem line {execution : Execution} (hgoes : execution.GoesOn)
    (h : Ends prompt last read executions unread result) :
    Ends prompt last (.line execution.line :: read) (execution :: executions) unread result := by
  cases h with
  | atEnd _ hall => exact .atEnd _ (List.forall_mem_cons.2 ⟨hgoes, hall⟩)
  | @atLine front _ earlier _ hearlier hstops hshown =>
    exact .atLine (.line execution.line :: front) unread
      (List.forall_mem_cons.2 ⟨hgoes, hearlier⟩) hstops hshown
  | @atError front _ earlier _ hearlier _ hunshown =>
    exact .atError (.line execution.line :: front) unread
      (List.forall_mem_cons.2 ⟨hgoes, hearlier⟩) hunshown

end Ends

/-! ## The loop -/

namespace Shell

variable (prompt : Shell → Text)

/-- A running shell answers a line by one execution, which escapes with an error that cannot be
shown. The shell goes on unless one of the turns of the line asks it to stop. -/
theorem exists_execution {shell : Shell} (hrunning : shell.running = true) (line : Text) :
    ∃ execution : Execution, execution.line = line ∧ execution.before = shell ∧
      Executed execution.line execution.before execution.left ∧
      shell.answered (.line line) = (execution.left, execution.unshown?) ∧
      execution.left.running = !execution.stops := by
  obtain ⟨hexecuted, hescaped⟩ := shell.executed_answered line
  have hleft := hexecuted.settled.running
  rw [hrunning, Bool.true_and] at hleft
  exact ⟨⟨line, shell, _⟩, rfl, rfl, hexecuted, Prod.ext rfl hescaped, hleft⟩

/-- A running loop goes on until its inputs end, it is asked to stop or an error cannot be shown. It
is not running then, unless an error has escaped. -/
theorem interact_session {shell : Shell} (hrunning : shell.running = true) (inputs : List Input) :
    ∃ read executions unread last, inputs = read ++ unread ∧
      Session prompt shell read executions last ∧
      Ends prompt last read executions unread (shell.interact prompt inputs) ∧
      ((shell.interact prompt inputs).escaped = none →
        (shell.interact prompt inputs).shell.running = false) := by
  have hempty : ∀ execution ∈ ([] : List Execution), execution.GoesOn :=
    fun _ h => absurd h List.not_mem_nil
  induction inputs generalizing shell with
  | nil => exact ⟨[], [], [], shell, rfl, .nil shell, .atEnd [] hempty, fun _ => rfl⟩
  | cons input inputs ih =>
    rw [interact]
    cases input with
    | interrupt =>
      have hstill : ((shell.prompted prompt).print "^C\n").running = true := hrunning
      obtain ⟨read, executions, unread, last, rfl, hsession, hends, hdone⟩ := ih hstill
      rw [answered]
      dsimp only
      rw [if_pos hstill]
      exact ⟨.interrupt :: read, executions, unread, last, rfl, .interrupt hsession,
        hends.interrupt, hdone⟩
    | line text =>
      have hprompted : (shell.prompted prompt).running = true := hrunning
      obtain ⟨execution, rfl, hbefore, hexecuted, hanswer, hleft⟩ :=
        exists_execution hprompted text
      have honly : Session prompt shell [.line execution.line] [execution] execution.left :=
        .line hbefore hexecuted (.nil execution.left)
      rw [hanswer]
      cases hunshown : execution.unshown? with
      | some crash =>
        exact ⟨[.line execution.line], [execution], inputs, execution.left, rfl, honly,
          .atError [] inputs hempty hunshown, fun h => by cases h⟩
      | none =>
        dsimp only
        cases hstops : execution.stops with
        | true =>
          have hstopped : execution.left.running = false := by rw [hleft, hstops, Bool.not_true]
          rw [hstopped, if_neg Bool.false_ne_true]
          exact ⟨[.line execution.line], [execution], inputs, execution.left, rfl, honly,
            .atLine [] inputs hempty hstops hunshown, fun _ => hstopped⟩
        | false =>
          have hstill : execution.left.running = true := by rw [hleft, hstops, Bool.not_false]
          obtain ⟨read, executions, unread, last, rfl, hsession, hends, hdone⟩ := ih hstill
          rw [if_pos hstill]
          exact ⟨.line execution.line :: read, execution :: executions, unread, last, rfl,
            .line hbefore hexecuted hsession, hends.line ⟨hstops, hunshown⟩, hdone⟩

/-- The loop reads the inputs one after the other up to the first line during whose execution the
shell is asked to stop, or to their end if there is no such line, and is not running then. Every
line that it reads is executed once, and an interrupt executes nothing. The commands of a line take
their turns up to the first one that breaks down, also behind one that fails and behind one that
asks the shell to stop. A breakdown leaves the rest of its line undone and nothing else; the loop
goes on unless the shell was asked to stop before. The only exception is an error that cannot be
shown: it ends the loop, and what comes behind its line is not read. -/
theorem run_session (inputs : List Input) (shell : Shell) :
    ∃ read executions unread last, inputs = read ++ unread ∧
      Session prompt shell.begun read executions last ∧
      executions.map Execution.line = read.filterMap Input.line? ∧
      (∀ execution ∈ executions, execution.Settled ∧ execution.before.table = shell.table ∧
        execution.before.streams = shell.streams) ∧
      Ends prompt last read executions unread (shell.run prompt inputs) ∧
      ((shell.run prompt inputs).escaped = none →
        (shell.run prompt inputs).shell.running = false) := by
  obtain ⟨read, executions, unread, last, hinputs, hsession, hends, hdone⟩ :=
    @interact_session prompt shell.begun rfl inputs
  exact ⟨read, executions, unread, last, hinputs, hsession, hsession.map_line, hsession.settled,
    hends, hdone⟩

/-- A command that fails with an error that cannot be shown. -/
def hush : Handler := .ofAction fun _ _ => throw (.crash ⟨"ValueError", none⟩)

/-- A shell on three buffers with commands that crash, crash with an error that cannot be shown,
stop the shell and write their arguments. -/
def porter : Shell :=
  { scribe with
    table := ⟨OrderedMap.ofList [(['x'], Commands.crash), (['h'], hush),
      (['q'], Commands.exit), (['e'], Commands.echo)], none, fun _ => none⟩ }

example :
    let left := porter.run (Shell.prompt .builtIn)
      [.line "x;e a", .interrupt, .line "e b;q;e c", .line "e d"]
    left.shell.world.endpoints[1]? = some (.stream (.buffer "b\nc\n")) ∧
      left.unread = [.line "e d"] := by
  decide +kernel

/-- A line that stops the shell, with a number that is too long to be read and a command behind it.
-/
def cutOff : Text := ['q'] ++ ';' :: (farLine ['e'] ++ ';' :: ['e', ' ', 'b'])

/-- Such a line is split into three commands. -/
theorem split_cutOff :
    Token.split cutOff = .ok [[.word ['q']],
      [.word ['e'], .redirect Invocation.longDigits .write, .word ['f']],
      [.word ['e'], .word ['b']]] := by
  have hquit : Token.split ['q'] = .ok [[.word ['q']]] := rfl
  have hfar : Token.split (farLine ['e']) =
      .ok [[.word ['e'], .redirect Invocation.longDigits .write, .word ['f']]] :=
    Token.split_of_tokenize (tokenize_farLine (rfl : Token.tokenize ['e'] = .ok [.word ['e']]))
  have hecho : Token.split ['e', ' ', 'b'] = .ok [[.word ['e'], .word ['b']]] := rfl
  exact Token.split_append_separator hquit (Token.split_append_separator hfar hecho)

/-- The porter does not come to the last of these commands. -/
theorem endpoints_run_porter {line : Text}
    (hsplit : Token.split line = .ok [[.word ['q']],
      [.word ['e'], .redirect Invocation.longDigits .write, .word ['f']],
      [.word ['e'], .word ['b']]]) :
    (porter.run (fun _ => []) [.line line]).shell.world.endpoints[1]? =
      some (.stream (.buffer [])) := by
  let begun := porter.begun.prompted fun _ => []
  have hname : Word.expand porter.world.environment porter.world.files ['q'] = .ok [['q']] := by
    decide +kernel
  have hcommand : Word.expand porter.world.environment porter.world.files ['e'] = .ok [['e']] := by
    decide +kernel
  have htarget : Word.expand porter.world.environment porter.world.files ['f'] = .ok [['f']] := by
    decide +kernel
  have hparse : Invocation.ofTokens porter.world.environment porter.world.files [.word ['q']] =
      .ok ⟨some ['q'], .empty, [], .empty⟩ := by
    rw [Invocation.ofTokens, Gathered.ofTokens, hname]
    rfl
  have hquit : begun.table.aftermath begun.streams (begun.entered line) [.word ['q']] =
      ⟨.ok ExitCode.success, begun.entered line, true⟩ := by
    rw [CommandTable.aftermath, CommandTable.course_of_parse hparse]
    rfl
  have hnext : begun.table.next begun.streams
      (.silent (.ok ExitCode.success) (begun.entered line)) [.word ['q']] =
        ⟨.ok ExitCode.success, begun.entered line, true⟩ := congrArg (·.since false) hquit
  obtain ⟨log, hrun⟩ := begun.execute_aftermath begun.streams line
  rw [CommandTable.lineAftermath_of_split hsplit, List.foldl_cons, hnext,
    CommandTable.foldl_next_unreadable rfl (course_farLine hcommand htarget)] at hrun
  have hanswer : (porter.begun.prompted fun _ => []).answered (.line line) =
      (recovered (NumeralError.tooLong 4301).crash (begun.took
        ⟨begun.world, (begun.entered line).memory, true, log⟩), none) := by
    rw [answered, hrun]
    rfl
  rw [Shell.run, interact, hanswer]
  rfl

/-- The command behind the number does not run, although the shell has been asked to stop after the
line only. An error that cannot be shown ends the loop, although nobody has asked the shell to stop.
-/
theorem run_session_cutOff :
    (porter.run (fun _ => []) [.line cutOff]).shell.world.endpoints[1]? =
        some (.stream (.buffer [])) ∧
      (porter.run (fun _ => []) [.line ['h'], .line ['e', ' ', 'b']]).unread =
        [.line ['e', ' ', 'b']] ∧
      (porter.run (fun _ => []) [.line ['h'], .line ['e', ' ', 'b']]).shell.running = true :=
  ⟨endpoints_run_porter split_cutOff, by decide +kernel⟩

end Shell

end MemShell
