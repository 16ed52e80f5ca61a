import MemShell.Proofs.Shell.Courses
import MemShell.Proofs.Token.Composition
import MemShell.Proofs.Token.Trimming
import MemShell.Shell.Session

/-!
# The turns of a line

Each command of a line takes its turn in the scene that the one before it has left, on the streams
of the line. A command breaks down if an error escapes from it: from its handler, or since the
number of a redirect is not read. Main statements: the commands take their turns in their order up
to the first one that breaks down, neither a failure of a command nor a wish to stop keeps the ones
behind it from their turns, and what a shell executes comes to what the turns of its line add up to.
-/

namespace MemShell

/-! ## Turns -/

/-- The end of a line that is not finished. -/
structure Breakdown where
  /-- The error that escapes from a command. -/
  crash : Crash
  /-- The scene that the command leaves. -/
  scene : Scene

/-- The turn of a command. -/
structure Turn where
  /-- The command. -/
  tokens : List Token
  /-- What becomes of it. -/
  course : Course
  /-- What it comes to. -/
  after : Aftermath

namespace Turn

/-- The breakdown that ends the line, if there is one. -/
def breakdown? (turn : Turn) : Option Breakdown :=
  match turn.after.outcome with
  | .ok _ => none
  | .error crash => some ⟨crash, turn.after.scene⟩

/-- What turns add up to behind other work: the outcome and the scene are those of the last one, and
each of them may ask the shell to stop. -/
def total (before : Aftermath) (turns : List Turn) : Aftermath :=
  turns.foldl (fun before turn => turn.after.since before.stops) before

/-- The shell is asked to stop if one of the turns asks it to. -/
theorem stops_total (before : Aftermath) (turns : List Turn) :
    (total before turns).stops = (before.stops || turns.any (·.after.stops)) := by
  induction turns generalizing before with
  | nil => exact (Bool.or_false _).symm
  | cons turn turns ih => exact (ih _).trans (Bool.or_assoc _ _ _)

/-- The last turn decides on the outcome and the scene. -/
theorem total_of_getLast? {turns : List Turn} {last : Turn} (h : turns.getLast? = some last)
    (before : Aftermath) :
    (total before turns).outcome = last.after.outcome ∧
      (total before turns).scene = last.after.scene := by
  obtain ⟨front, rfl⟩ := List.getLast?_eq_some_iff.1 h
  rw [total, List.foldl_append]
  exact ⟨rfl, rfl⟩

end Turn

namespace CommandTable

variable (table : CommandTable) (streams : StreamSet)

/-- The turn that a command takes in a scene. -/
def turn (scene : Scene) (tokens : List Token) : Turn :=
  ⟨tokens, table.course streams scene tokens, table.aftermath streams scene tokens⟩

/-- The turns that commands take one after the other, each in the scene that the one before it has
left, unless that one has broken down. -/
def turns : List (List Token) → Scene → List Turn
  | [], _ => []
  | tokens :: commands, scene =>
    table.turn streams scene tokens ::
      match (table.aftermath streams scene tokens).outcome with
      | .ok _ => turns commands (table.aftermath streams scene tokens).scene
      | .error _ => []

/-- What a line comes to: what the turns of its commands add up to. A line that cannot be split is
reported. -/
def lineAftermath (scene : Scene) (line : Text) : Aftermath :=
  match Token.split line with
  | .error error => .reported error.fault streams.err scene
  | .ok commands =>
    Turn.total (.silent (.ok ExitCode.success) scene) (table.turns streams commands scene)

end CommandTable

/-- The commands of a line, none if it cannot be split. -/
def commandsOf (line : Text) : List (List Token) :=
  match Token.split line with
  | .ok commands => commands
  | .error _ => []

/-- Every command takes its turn, in order, up to the first one that breaks down. -/
inductive UpToBreakdown : List (List Token) → List Turn → Prop
  /-- All commands have had their turns. -/
  | nil : UpToBreakdown [] []
  /-- Any other command is followed by the ones behind it. -/
  | cons {turn : Turn} (h : turn.breakdown? = none) {commands : List (List Token)}
    {turns : List Turn} (hrest : UpToBreakdown commands turns) :
    UpToBreakdown (turn.tokens :: commands) (turn :: turns)
  /-- A command that breaks down is the last one. -/
  | breakdown {turn : Turn} {breakdown : Breakdown} (h : turn.breakdown? = some breakdown)
    (commands : List (List Token)) : UpToBreakdown (turn.tokens :: commands) [turn]

namespace UpToBreakdown

variable {commands : List (List Token)} {turns : List Turn}

/-- Unless there is a breakdown all commands take their turns, and come to an end. -/
theorem complete (h : UpToBreakdown commands turns)
    (hnone : turns.findSome? Turn.breakdown? = none) {before : Aftermath} {code : Int}
    (hbefore : before.outcome = .ok code) :
    turns.map Turn.tokens = commands ∧ ∃ code, (Turn.total before turns).outcome = .ok code := by
  induction h generalizing before code with
  | nil => exact ⟨rfl, code, hbefore⟩
  | @cons turn hgoes commands turns hrest ih =>
    rw [List.findSome?_cons, hgoes] at hnone
    cases houtcome : turn.after.outcome with
    | error crash => simp [Turn.breakdown?, houtcome] at hgoes
    | ok code =>
      have hafter : (turn.after.since before.stops).outcome = .ok code := houtcome
      obtain ⟨htokens, hend⟩ := ih hnone hafter
      exact ⟨congrArg (List.cons _) htokens, hend⟩
  | breakdown hbreakdown commands =>
    rw [List.findSome?_cons, hbreakdown] at hnone
    cases hnone

/-- A breakdown is where the turns end. -/
theorem total_of_breakdown (h : UpToBreakdown commands turns) {breakdown : Breakdown}
    (hsome : turns.findSome? Turn.breakdown? = some breakdown) (before : Aftermath) :
    (Turn.total before turns).outcome = .error breakdown.crash ∧
      (Turn.total before turns).scene = breakdown.scene := by
  induction h generalizing before with
  | nil => cases hsome
  | cons hgoes hrest ih =>
    rw [List.findSome?_cons, hgoes] at hsome
    exact ih hsome _
  | @breakdown turn other hbreakdown commands =>
    rw [List.findSome?_cons, hbreakdown] at hsome
    cases hsome
    cases houtcome : turn.after.outcome with
    | ok code => simp [Turn.breakdown?, houtcome] at hbreakdown
    | error crash =>
      simp only [Turn.breakdown?, houtcome, Option.some.injEq] at hbreakdown
      subst hbreakdown
      exact ⟨houtcome, rfl⟩

end UpToBreakdown

/-! ## The run of a line -/

namespace CommandTable

/-- What a line has come to after one more command, unless it has broken down. -/
def next (table : CommandTable) (streams : StreamSet) (before : Aftermath) (tokens : List Token) :
    Aftermath :=
  match before.outcome with
  | .error _ => before
  | .ok _ => (table.aftermath streams before.scene tokens).since before.stops

variable {table : CommandTable} {streams : StreamSet}

/-- Nothing more happens on a line that has broken down. -/
theorem foldl_next_error {before : Aftermath} {crash : Crash} (h : before.outcome = .error crash)
    (commands : List (List Token)) : commands.foldl (table.next streams) before = before := by
  induction commands with
  | nil => rfl
  | cons tokens commands ih =>
    have hnext : table.next streams before tokens = before := by rw [next, h]
    rw [List.foldl_cons, hnext, ih]

/-- A number that is not read ends the line where it stands. -/
theorem foldl_next_unreadable {before : Aftermath} {code : Int}
    (hbefore : before.outcome = .ok code)
    {tokens : List Token} {error : NumeralError}
    (h : table.course streams before.scene tokens = .unreadable error)
    (commands : List (List Token)) :
    (tokens :: commands).foldl (table.next streams) before =
      { before with outcome := .error error.crash } := by
  have hnext :
      table.next streams before tokens = { before with outcome := .error error.crash } := by
    rw [next, hbefore, aftermath, h]
    exact Aftermath.since_silent _ _ _
  rw [List.foldl_cons, hnext, foldl_next_error rfl]

/-- Whether the shell was asked to stop before makes no difference to what commands come to. -/
theorem foldl_next_since (commands : List (List Token)) (before : Aftermath) (earlier : Bool) :
    commands.foldl (table.next streams) (before.since earlier) =
      (commands.foldl (table.next streams) before).since earlier := by
  induction commands generalizing before with
  | nil => rfl
  | cons tokens commands ih =>
    have hnext : table.next streams (before.since earlier) tokens =
        (table.next streams before tokens).since earlier := by
      rw [next, next]
      change (match before.outcome with | .error _ => _ | .ok _ => _) = _
      cases before.outcome with
      | error crash => rfl
      | ok code => exact (Aftermath.since_since _ _ _).symm
    rw [List.foldl_cons, List.foldl_cons, hnext, ih]

/-- The turns of commands add up to what one after the other of them comes to. -/
theorem total_turns (commands : List (List Token)) (code : Int) (scene : Scene) (stops : Bool) :
    Turn.total ⟨.ok code, scene, stops⟩ (table.turns streams commands scene) =
      commands.foldl (table.next streams) ⟨.ok code, scene, stops⟩ := by
  induction commands generalizing code scene stops with
  | nil => rfl
  | cons tokens commands ih =>
    have hnext : table.next streams ⟨.ok code, scene, stops⟩ tokens =
      (table.aftermath streams scene tokens).since stops := rfl
    rw [turns, Turn.total, List.foldl_cons, List.foldl_cons, hnext, turn]
    obtain ⟨outcome, left, asked⟩ := table.aftermath streams scene tokens
    cases outcome with
    | ok code => exact ih code left _
    | error crash => exact (foldl_next_error rfl commands).symm

/-- A line that can be split comes to what one after the other of its commands comes to. -/
theorem lineAftermath_of_split {line : Text} {commands : List (List Token)}
    (h : Token.split line = .ok commands) (scene : Scene) :
    table.lineAftermath streams scene line =
      commands.foldl (table.next streams) (.silent (.ok ExitCode.success) scene) := by
  rw [lineAftermath, h]
  exact total_turns commands _ scene false

/-- Lines that are read alike come to the same. -/
theorem lineAftermath_congr {line written : Text}
    (h : Token.reading line = Token.reading written) (scene : Scene) :
    table.lineAftermath streams scene line = table.lineAftermath streams scene written := by
  rw [Token.reading, Token.reading] at h
  rw [lineAftermath, lineAftermath, Token.split, Token.split]
  cases hline : Token.tokenize line with
  | error error =>
    cases hwritten : Token.tokenize written with
    | ok tokens =>
      rw [hline, hwritten] at h
      cases h
    | error other =>
      rw [hline, hwritten] at h
      have hmessage : error.message = other.message := Except.error.inj h
      have hreport (cause : LexError) : Aftermath.reported cause.fault streams.err scene =
        .silent (.ok ExitCode.failure) (scene.writeLine streams.err cause.message) := rfl
      simp only [Except.map, hreport, hmessage]
  | ok tokens =>
    cases hwritten : Token.tokenize written with
    | error other =>
      rw [hline, hwritten] at h
      cases h
    | ok others =>
      rw [hline, hwritten] at h
      cases h
      rfl

/-- Each turn is one that a command takes in some scene. -/
theorem exists_turn_of_mem {commands : List (List Token)} {scene : Scene} {turn : Turn}
    (h : turn ∈ table.turns streams commands scene) :
    ∃ before tokens, turn = table.turn streams before tokens := by
  induction commands generalizing scene with
  | nil => exact absurd h List.not_mem_nil
  | cons tokens commands ih =>
    rw [turns] at h
    rcases List.mem_cons.1 h with rfl | h
    · exact ⟨scene, tokens, rfl⟩
    · split at h
      · exact ih h
      · exact absurd h List.not_mem_nil

/-- A turn breaks down where the number of a redirect is not read. -/
theorem breakdown?_of_unreadable {scene : Scene} {tokens : List Token} {error : NumeralError}
    (h : table.course streams scene tokens = .unreadable error) :
    (table.turn streams scene tokens).breakdown? = some ⟨error.crash, scene⟩ := by
  rw [Turn.breakdown?, turn, aftermath, h]
  rfl

/-- A turn breaks down where the number of a redirect is not read, or with the error that escapes
from its handler. -/
theorem breakdown_cases {commands : List (List Token)} {scene : Scene} {turn : Turn}
    (hturn : turn ∈ table.turns streams commands scene) {breakdown : Breakdown}
    (h : turn.breakdown? = some breakdown) :
    (∃ error, turn.course = .unreadable error ∧ breakdown.crash = error.crash) ∨
      ∃ call, turn.course = .called call ∧
        call.reply.outcome = .error (.crash breakdown.crash) := by
  obtain ⟨before, tokens, rfl⟩ := exists_turn_of_mem hturn
  rw [Turn.breakdown?] at h
  split at h
  · cases h
  · next crash houtcome =>
    cases h
    exact Course.of_error houtcome

/-- Commands take their turns up to the first one that breaks down. -/
theorem upToBreakdown_turns (commands : List (List Token)) (scene : Scene) :
    UpToBreakdown commands (table.turns streams commands scene) := by
  induction commands generalizing scene with
  | nil => exact .nil
  | cons tokens commands ih =>
    rw [turns]
    cases houtcome : (table.aftermath streams scene tokens).outcome with
    | ok code =>
      have hgoes : (table.turn streams scene tokens).breakdown? = none := by
        rw [Turn.breakdown?, turn, houtcome]
      exact .cons hgoes (ih _)
    | error crash =>
      have hbreakdown : (table.turn streams scene tokens).breakdown? =
          some ⟨crash, (table.aftermath streams scene tokens).scene⟩ := by
        rw [Turn.breakdown?, turn, houtcome]
      exact .breakdown hbreakdown commands

/-- A line stops the shell if one of its turns does. -/
theorem stops_lineAftermath (scene : Scene) (line : Text) :
    (table.lineAftermath streams scene line).stops =
      (table.turns streams (commandsOf line) scene).any (·.after.stops) := by
  rw [lineAftermath, commandsOf]
  cases Token.split line with
  | error error => rfl
  | ok commands => exact (Turn.stops_total _ _).trans (Bool.false_or _)

/-- A line without a breakdown comes to its end after all of its commands. -/
theorem lineAftermath_of_complete {scene : Scene} {line : Text}
    (h : (table.turns streams (commandsOf line) scene).findSome? Turn.breakdown? = none) :
    (table.turns streams (commandsOf line) scene).map Turn.tokens = commandsOf line ∧
      ∃ code, (table.lineAftermath streams scene line).outcome = .ok code := by
  rw [commandsOf] at h ⊢
  rw [lineAftermath]
  cases hline : Token.split line with
  | error error => exact ⟨rfl, _, rfl⟩
  | ok commands =>
    rw [hline] at h
    exact @UpToBreakdown.complete _ _ (upToBreakdown_turns commands scene) h
      (.silent (.ok ExitCode.success) scene) ExitCode.success rfl

/-- A line with a breakdown ends with its error, in the scene that it leaves. -/
theorem lineAftermath_of_breakdown {scene : Scene} {line : Text} {breakdown : Breakdown}
    (h : (table.turns streams (commandsOf line) scene).findSome? Turn.breakdown? =
      some breakdown) :
    (table.lineAftermath streams scene line).outcome = .error breakdown.crash ∧
      (table.lineAftermath streams scene line).scene = breakdown.scene := by
  rw [commandsOf] at h
  rw [lineAftermath]
  cases hline : Token.split line with
  | error error =>
    rw [hline] at h
    cases h
  | ok commands =>
    rw [hline] at h
    exact (upToBreakdown_turns commands scene).total_of_breakdown h _

/-- The last turn of a line decides on its outcome and its scene. -/
theorem lineAftermath_of_getLast? {scene : Scene} {line : Text} {last : Turn}
    (h : (table.turns streams (commandsOf line) scene).getLast? = some last) :
    (table.lineAftermath streams scene line).outcome = last.after.outcome ∧
      (table.lineAftermath streams scene line).scene = last.after.scene := by
  rw [commandsOf] at h
  rw [lineAftermath]
  cases hline : Token.split line with
  | error error =>
    rw [hline] at h
    cases h
  | ok commands =>
    rw [hline] at h
    exact Turn.total_of_getLast? h _

end CommandTable

namespace Action

variable {table : CommandTable} {streams : StreamSet}

/-- Commands come to what one after the other of them comes to. -/
theorem runCommands_aftermath (commands : List (List Token)) (code : Int) (progress : Progress) :
    ∃ log, runCommands table streams code commands progress =
      (commands.foldl (table.next streams) ⟨.ok code, progress.scene, progress.stops⟩).result
        log := by
  induction commands generalizing code progress with
  | nil => exact ⟨progress.log, rfl⟩
  | cons tokens commands ih =>
    obtain ⟨log, hrun⟩ := runCommand_aftermath table streams tokens progress
    have hnext : table.next streams ⟨.ok code, progress.scene, progress.stops⟩ tokens =
      (table.aftermath streams progress.scene tokens).since progress.stops := rfl
    rw [List.foldl_cons, hnext]
    generalize (table.aftermath streams progress.scene tokens).since progress.stops = after
      at hrun
    obtain ⟨outcome, scene, stops⟩ := after
    cases outcome with
    | error crash =>
      rw [CommandTable.foldl_next_error rfl]
      exact ⟨log, bind_error hrun⟩
    | ok code =>
      rw [runCommands, bind_ok hrun]
      exact ih code _

/-- A line comes to its aftermath, whatever was logged before it. The shell has been asked to stop
if it was before or is now. -/
theorem runLine_aftermath (line : Text) (progress : Progress) :
    ∃ log, runLine table streams line progress =
      ((table.lineAftermath streams progress.scene line).since progress.stops).result log := by
  rw [runLine, CommandTable.lineAftermath, Token.split]
  cases Token.tokenize line with
  | error error => exact report_aftermath error.fault none streams.err progress
  | ok tokens =>
    simp only [Except.map]
    rw [Aftermath.silent, CommandTable.total_turns, ← CommandTable.foldl_next_since,
      ← Aftermath.silent, Aftermath.since_silent]
    exact runCommands_aftermath (Token.commands tokens) ExitCode.success
      (progress.logged (Journal.tokenized tokens))

end Action

/-! ## What a shell executes -/

namespace Shell

/-- The scene of a line that has been entered. -/
def entered (shell : Shell) (line : Text) : Scene :=
  ⟨shell.world, { shell.toMemory with history := shell.history.add line }⟩

/-- What a shell comes to by a line with an aftermath. -/
def result (shell : Shell) (after : Aftermath) (log : List LogEntry) :
    EStateM.Result Crash Shell Int :=
  match after.outcome with
  | .ok code => .ok code { shell.took (after.progress log) with lastExit := code }
  | .error crash => .error crash (shell.took (after.progress log))

variable {shell : Shell} {after : Aftermath}

/-- A line that comes to its end leaves its exit code with all that it has done. -/
theorem result_ok {code : Int} (h : after.outcome = .ok code) (log : List LogEntry) :
    shell.result after log =
      .ok code { shell.took (after.progress log) with lastExit := code } := by
  rw [result, h]

/-- Only a line that comes to its end gives an exit code. -/
theorem of_result_ok {code : Int} {log : List LogEntry} {left : Shell}
    (h : shell.result after log = .ok code left) :
    after.outcome = .ok code ∧
      left = { shell.took (after.progress log) with lastExit := code } := by
  rw [result] at h
  split at h
  · next value houtcome =>
    cases h
    exact ⟨houtcome, rfl⟩
  · cases h

/-- A line that breaks down leaves what it has done. -/
theorem result_error {crash : Crash} (h : after.outcome = .error crash) (log : List LogEntry) :
    shell.result after log = .error crash (shell.took (after.progress log)) := by
  rw [result, h]

/-- A shell takes over what the line that it executes comes to. -/
theorem execute_aftermath (shell : Shell) (streams : StreamSet) (line : Text) :
    ∃ log, (execute streams line).run shell =
      shell.result (shell.table.lineAftermath streams (shell.entered line) line) log := by
  let begun : Shell := { shell with history := shell.history.add line }
  obtain ⟨log, hrun⟩ := @Action.runLine_aftermath shell.table streams line begun.progress
  refine ⟨log, ?_⟩
  change (act (Action.runLine shell.table streams line) >>= fun code => do
    modify fun shell => { shell with lastExit := code }
    return code : ShellOp Int) begun = _
  have hline : shell.table.lineAftermath streams begun.progress.scene line =
      shell.table.lineAftermath streams (shell.entered line) line := rfl
  have hstart : begun.progress.stops = false := rfl
  rw [hline, hstart, Aftermath.since, Bool.false_or] at hrun
  generalize shell.table.lineAftermath streams (shell.entered line) line = after at hrun
  obtain ⟨outcome, scene, stops⟩ := after
  cases outcome with
  | ok code =>
    have hact : act (Action.runLine shell.table streams line) begun =
        .ok code (begun.took (Aftermath.progress ⟨.ok code, scene, stops⟩ log)) := by
      rw [act, EStateM.run, hrun]
      rfl
    rw [bind_ok hact]
    rfl
  | error crash =>
    have hact : act (Action.runLine shell.table streams line) begun =
        .error crash (begun.took (Aftermath.progress ⟨.error crash, scene, stops⟩ log)) := by
      rw [act, EStateM.run, hrun]
      rfl
    rw [bind_error hact]
    rfl

/-- A line that is executed comes to its end, or to a breakdown. -/
theorem execute_cases (shell : Shell) (streams : StreamSet) (line : Text) :
    let turns := shell.table.turns streams (commandsOf line) (shell.entered line)
    let after := shell.table.lineAftermath streams (shell.entered line) line
    ∃ log,
      (turns.findSome? Turn.breakdown? = none ∧ turns.map Turn.tokens = commandsOf line ∧
        ∃ code, after.outcome = .ok code ∧ (execute streams line).run shell =
          .ok code { shell.took (after.progress log) with lastExit := code }) ∨
      ∃ breakdown, turns.findSome? Turn.breakdown? = some breakdown ∧
        after.scene = breakdown.scene ∧ (execute streams line).run shell =
          .error breakdown.crash (shell.took (after.progress log)) := by
  intro turns after
  obtain ⟨log, hrun⟩ := shell.execute_aftermath streams line
  refine ⟨log, ?_⟩
  cases hbreakdown : turns.findSome? Turn.breakdown? with
  | none =>
    obtain ⟨htokens, code, houtcome⟩ := CommandTable.lineAftermath_of_complete hbreakdown
    exact .inl ⟨rfl, htokens, code, houtcome, hrun.trans (result_ok houtcome log)⟩
  | some breakdown =>
    obtain ⟨houtcome, hscene⟩ := CommandTable.lineAftermath_of_breakdown hbreakdown
    exact .inr ⟨breakdown, rfl, hscene, hrun.trans (result_error houtcome log)⟩

end Shell

end MemShell
