import MemShell.Proofs.Shell.Turns

/-!
# Orderly handlers

An orderly handler acts on the world only, and fails only with errors that a shell reports. What a
command comes to under orderly handlers depends on the world, and on the memory of the shell only as
far as the registered commands go. It keeps the memory, and it breaks down only if the number of a
redirect is not read.
-/

namespace MemShell

/-! ## Other memories -/

/-- The scene with another memory. -/
def Scene.withMemory (scene : Scene) (memory : Memory) : Scene := { scene with memory := memory }

/-- The reply with another memory. -/
def Reply.withMemory (reply : Reply) (memory : Memory) : Reply :=
  { reply with progress := { reply.progress with memory := memory } }

/-- The aftermath with another memory. -/
def Aftermath.withMemory (after : Aftermath) (memory : Memory) : Aftermath :=
  { after with scene := after.scene.withMemory memory }

/-- What a reply comes to has the memory of the reply. -/
theorem Reply.aftermath_withMemory (reply : Reply) (memory : Memory) (err : Handle) :
    (reply.withMemory memory).aftermath err = (reply.aftermath err).withMemory memory := by
  obtain ⟨outcome, progress⟩ := reply
  cases outcome with
  | ok code => rfl
  | error trouble => cases trouble <;> rfl

/-- The handler for a command depends on the registered commands only. -/
theorem CommandTable.handler?_congr (table : CommandTable) {memory other : Memory}
    (h : memory.bindings = other.bindings) (name : Text) :
    table.handler? memory name = table.handler? other name := by
  rw [handler?, handler?, bound?, bound?, h]

/-! ## Commands under orderly handlers -/

/-- A handler acts on the world only, and its errors are reported. -/
structure Handler.Orderly (handler : Handler) : Prop where
  /-- It neither sees nor changes the memory of the shell. -/
  memory : ∀ invocation streams memory other world, handler invocation streams other world =
    (handler invocation streams memory world).withMemory other
  /-- No error escapes from it that the shell does not expect. -/
  reported : ∀ invocation streams memory world crash,
    (handler invocation streams memory world).outcome ≠ .error (.crash crash)

/-- All handlers that are found in a table are orderly. -/
def CommandTable.Orderly (table : CommandTable) : Prop :=
  ∀ memory name handler, table.handler? memory name = some handler → handler.Orderly

namespace CommandTable.Orderly

variable {table : CommandTable} (h : table.Orderly) (streams : StreamSet) (world : World)
  {memory other : Memory} (hbindings : memory.bindings = other.bindings)

include h hbindings

/-- A command that has been parsed and redirected does the same with another memory. -/
theorem aftermath_dispatched (own : StreamSet) (invocation : Invocation)
    (scene reflection : Scene) :
    (table.dispatched ⟨world, other⟩ own invocation).aftermath streams reflection =
      ((table.dispatched ⟨world, memory⟩ own invocation).aftermath streams scene).withMemory
        other := by
  rw [dispatched, dispatched]
  cases invocation.command with
  | none => rfl
  | some name =>
    dsimp only
    rw [← table.handler?_congr hbindings]
    cases hhandler : table.handler? memory name with
    | none => rfl
    | some handler =>
      have hreply := (h _ _ _ hhandler).memory invocation own memory other world
      change (handler invocation own other world).aftermath own.err =
        ((handler invocation own memory world).aftermath own.err).withMemory other
      rw [hreply, Reply.aftermath_withMemory]

/-- A command does the same with another memory in which the same commands are registered. -/
theorem aftermath_withMemory (tokens : List Token) :
    table.aftermath streams ⟨world, other⟩ tokens =
      (table.aftermath streams ⟨world, memory⟩ tokens).withMemory other := by
  rw [aftermath, aftermath, course, course]
  cases Invocation.ofTokens world.environment world.files tokens with
  | error failure => cases failure <;> rfl
  | ok invocation =>
    dsimp only
    rw [invoked, invoked]
    dsimp only
    cases World.carryOut world.environment.cwd world streams invocation.redirects.entries with
    | mk outcome opened =>
      cases outcome with
      | error error => rfl
      | ok own => exact h.aftermath_dispatched streams opened hbindings own invocation _ _

end CommandTable.Orderly

namespace CommandTable.Orderly

variable {table : CommandTable} (h : table.Orderly) (streams : StreamSet)

include h

/-- A command keeps the memory. -/
theorem memory_aftermath (scene : Scene) (tokens : List Token) :
    (table.aftermath streams scene tokens).scene.memory = scene.memory :=
  congrArg (·.scene.memory) (h.aftermath_withMemory streams scene.world rfl tokens)

/-- A command breaks down only if the number of a redirect is not read. -/
theorem breakdown_aftermath {scene : Scene} {tokens : List Token} {crash : Crash}
    (hcrash : (table.aftermath streams scene tokens).outcome = .error crash) :
    ∃ error, table.course streams scene tokens = .unreadable error ∧ crash = error.crash := by
  rcases Course.of_error hcrash with hnumeral | ⟨call, hcourse, houtcome⟩
  · exact hnumeral
  · obtain ⟨name, hhandler⟩ := handler_of_course hcourse
    exact absurd houtcome ((h _ _ _ hhandler).reported _ _ _ _ _)

/-! ## Lines under orderly handlers -/

/-- One more command on a line keeps the memory. -/
theorem memory_next (before : Aftermath) (tokens : List Token) :
    (table.next streams before tokens).scene.memory = before.scene.memory := by
  rw [next]
  split
  · rfl
  · exact h.memory_aftermath streams before.scene tokens

/-- Commands do the same with another memory in which the same commands are registered. -/
theorem foldl_next_withMemory (commands : List (List Token)) (before : Aftermath) (other : Memory)
    (hbindings : before.scene.memory.bindings = other.bindings) :
    commands.foldl (table.next streams) (before.withMemory other) =
      (commands.foldl (table.next streams) before).withMemory other := by
  induction commands generalizing before with
  | nil => rfl
  | cons tokens commands ih =>
    have hnext : table.next streams (before.withMemory other) tokens =
        (table.next streams before tokens).withMemory other := by
      obtain ⟨outcome, ⟨world, memory⟩, stops⟩ := before
      cases outcome with
      | error crash => rfl
      | ok code =>
        exact congrArg (·.since stops) (h.aftermath_withMemory streams world hbindings tokens)
    have hkept : (table.next streams before tokens).scene.memory.bindings = other.bindings := by
      rw [h.memory_next, hbindings]
    rw [List.foldl_cons, List.foldl_cons, hnext, ih _ hkept]

/-- A turn breaks down only if the number of a redirect is not read. -/
theorem breakdown_turns {commands : List (List Token)} {scene : Scene} {turn : Turn}
    (hturn : turn ∈ table.turns streams commands scene) {breakdown : Breakdown}
    (hbreakdown : turn.breakdown? = some breakdown) :
    ∃ error, turn.course = .unreadable error ∧ breakdown.crash = error.crash := by
  obtain ⟨before, tokens, rfl⟩ := exists_turn_of_mem hturn
  rw [Turn.breakdown?, turn] at hbreakdown
  split at hbreakdown
  · cases hbreakdown
  · next crash houtcome =>
    cases hbreakdown
    exact h.breakdown_aftermath streams houtcome

/-- No turn breaks down if and only if the numbers of all redirects are read. -/
theorem findSome?_breakdown_eq_none_iff (commands : List (List Token)) (scene : Scene) :
    (table.turns streams commands scene).findSome? Turn.breakdown? = none ↔
      ∀ turn ∈ table.turns streams commands scene, ∀ error, turn.course ≠ .unreadable error := by
  rw [List.findSome?_eq_none_iff]
  refine forall₂_congr fun turn hturn => ⟨fun hnone error herror => ?_, fun hread => ?_⟩
  · obtain ⟨before, tokens, rfl⟩ := exists_turn_of_mem hturn
    rw [breakdown?_of_unreadable herror] at hnone
    cases hnone
  · cases hbreakdown : turn.breakdown? with
    | none => rfl
    | some breakdown =>
      obtain ⟨error, herror, -⟩ := h.breakdown_turns streams hturn hbreakdown
      exact absurd herror (hread error)

/-- A line does the same with another memory in which the same commands are registered. -/
theorem lineAftermath_withMemory (line : Text) {scene : Scene} {other : Memory}
    (hbindings : scene.memory.bindings = other.bindings) :
    table.lineAftermath streams (scene.withMemory other) line =
      (table.lineAftermath streams scene line).withMemory other := by
  cases hline : Token.split line with
  | error error =>
    rw [lineAftermath, lineAftermath, hline]
    rfl
  | ok commands =>
    rw [lineAftermath_of_split hline, lineAftermath_of_split hline]
    exact h.foldl_next_withMemory streams commands (.silent (.ok ExitCode.success) scene) other
      hbindings

/-- A line keeps the memory. -/
theorem memory_lineAftermath (scene : Scene) (line : Text) :
    (table.lineAftermath streams scene line).scene.memory = scene.memory :=
  congrArg (·.scene.memory)
    (h.lineAftermath_withMemory streams line (Eq.refl scene.memory.bindings))

/-- An error that ends a line is that of a number that is not read. -/
theorem breakdown_lineAftermath {scene : Scene} {line : Text} {crash : Crash}
    (hcrash : (table.lineAftermath streams scene line).outcome = .error crash) :
    ∃ error : NumeralError, crash = error.crash := by
  cases hfind : (table.turns streams (commandsOf line) scene).findSome? Turn.breakdown? with
  | none =>
    obtain ⟨-, code, hcode⟩ := lineAftermath_of_complete hfind
    rw [hcode] at hcrash
    cases hcrash
  | some breakdown =>
    obtain ⟨turn, hturn, hbreakdown⟩ := List.exists_of_findSome?_eq_some hfind
    obtain ⟨error, -, herror⟩ := h.breakdown_turns streams hturn hbreakdown
    rw [(lineAftermath_of_breakdown hfind).1] at hcrash
    cases hcrash
    exact ⟨error, herror⟩

end CommandTable.Orderly

end MemShell
