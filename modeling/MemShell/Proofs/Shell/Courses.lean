import MemShell.Proofs.Shell.Redirecting

/-!
# The course of a command

What becomes of a command is told from the scene in which it is run, the world and the memory of its
shell: it is refused, the number of one of its redirects is not read, the file of a redirect cannot
be opened, it is empty, nothing is known under its name, or a handler is called for it. Each course
has its aftermath. Main statement: running a command comes to the aftermath of its course, whatever
was logged before it and whoever has asked the shell to stop.
-/

namespace MemShell

/-- What a command sees and can change. -/
structure Scene where
  /-- The world. -/
  world : World
  /-- The memory of the shell. -/
  memory : Memory

/-- The scene in which work has come so far. -/
def Progress.scene (progress : Progress) : Scene := ⟨progress.world, progress.memory⟩

@[simp] theorem Progress.world_scene (progress : Progress) :
    progress.scene.world = progress.world := rfl

/-- The scene that a handler leaves. -/
def Reply.scene (reply : Reply) : Scene := reply.progress.scene

/-- A scene after a line has been written to a handle. -/
def Scene.writeLine (scene : Scene) (handle : Handle) (text : Text) : Scene :=
  { scene with world := scene.world.writeLine handle text }

/-! ## Aftermaths -/

/-- What a piece of work comes to. -/
structure Aftermath where
  /-- The exit code, or the error that has escaped. -/
  outcome : Except Crash Int
  /-- The scene that it leaves. -/
  scene : Scene
  /-- Whether the shell has been asked to stop. -/
  stops : Bool

namespace Aftermath

/-- The aftermath of work by which nobody asks the shell to stop. -/
def silent (outcome : Except Crash Int) (scene : Scene) : Aftermath := ⟨outcome, scene, false⟩

/-- The aftermath of work that is reported as a failure in a line. -/
def reported (fault : Fault) (err : Handle) (scene : Scene) : Aftermath :=
  silent (.ok ExitCode.failure) (scene.writeLine err fault.message.display)

/-- How far work with an aftermath has come. -/
def progress (after : Aftermath) (log : List LogEntry) : Progress :=
  ⟨after.scene.world, after.scene.memory, after.stops, log⟩

/-- The result of work with an aftermath. -/
def result (after : Aftermath) (log : List LogEntry) : EStateM.Result Crash Progress Int :=
  match after.outcome with
  | .ok code => .ok code (after.progress log)
  | .error crash => .error crash (after.progress log)

/-- Work with an exit code comes to its end. -/
theorem result_ok {after : Aftermath} {code : Int} (h : after.outcome = .ok code)
    (log : List LogEntry) : after.result log = .ok code (after.progress log) := by
  rw [result, h]

/-- The aftermath if the shell may have been asked to stop before. -/
def since (after : Aftermath) (earlier : Bool) : Aftermath :=
  { after with stops := earlier || after.stops }

/-- Silent work leaves it to the work before whether the shell stops. -/
theorem since_silent (outcome : Except Crash Int) (scene : Scene) (earlier : Bool) :
    (silent outcome scene).since earlier = ⟨outcome, scene, earlier⟩ := by
  rw [since, silent, Bool.or_false]

/-- The shell may have been asked to stop at several places before. -/
theorem since_since (after : Aftermath) (earlier before : Bool) :
    (after.since earlier).since before = after.since (before || earlier) := by
  rw [since, since, since, Bool.or_assoc]

end Aftermath

/-! ## Calls of handlers -/

/-- What a handler comes to with a reply: a mishap is reported on the errors of the command. -/
def Reply.aftermath (reply : Reply) (err : Handle) : Aftermath :=
  match reply.outcome with
  | .ok code => ⟨.ok code, reply.scene, reply.progress.stops⟩
  | .error (.mishap mishap) =>
    (Aftermath.reported mishap.fault err reply.scene).since reply.progress.stops
  | .error (.crash crash) => ⟨.error crash, reply.scene, reply.progress.stops⟩

/-- A handler that comes to its end leaves its exit code with all that it has done. -/
theorem Reply.aftermath_ok {reply : Reply} {code : Int} (h : reply.outcome = .ok code)
    (err : Handle) : reply.aftermath err = ⟨.ok code, reply.scene, reply.progress.stops⟩ := by
  rw [aftermath, h]

/-- A call of a handler. -/
structure HandlerCall where
  /-- The handler. -/
  handler : Handler
  /-- The command as it has been parsed. -/
  invocation : Invocation
  /-- The streams of the command. -/
  streams : StreamSet
  /-- The scene in which the handler is called. -/
  scene : Scene

/-- What a handler that is called leaves. -/
def HandlerCall.reply (call : HandlerCall) : Reply :=
  call.handler call.invocation call.streams call.scene.memory call.scene.world

/-! ## Courses -/

/-- What becomes of a command. -/
inductive Course
  /-- It cannot be parsed. -/
  | refused (error : ParseError)
  /-- The number of one of its redirects is not read. -/
  | unreadable (error : NumeralError)
  /-- The files of its redirects are opened up to one that cannot be. -/
  | blocked (error : FileError) (opened : Scene)
  /-- Its redirects are carried out, and it has no name. -/
  | empty (opened : Scene)
  /-- Its redirects are carried out, and nothing is known under its name. -/
  | unknown (name : Text) (err : Handle) (opened : Scene)
  /-- Its redirects are carried out, and a handler is called. -/
  | called (call : HandlerCall)

/-- What a course comes to from a scene, on the streams of a line. -/
def Course.aftermath (streams : StreamSet) (scene : Scene) : Course → Aftermath
  | refused error => .reported error.fault streams.err scene
  | unreadable error => .silent (.error error.crash) scene
  | blocked error opened => .reported (Mishap.file error).fault streams.err opened
  | empty opened => .silent (.ok ExitCode.success) opened
  | unknown name err opened =>
    .silent (.ok ExitCode.notFound) (opened.writeLine err ("Unknown command '" ++ name ++ "'."))
  | called call => call.reply.aftermath call.streams.err

/-- An error escapes where the number of a redirect is not read, or from the handler that is called.
-/
theorem Course.of_error {course : Course} {streams : StreamSet} {scene : Scene} {crash : Crash}
    (h : (course.aftermath streams scene).outcome = .error crash) :
    (∃ error, course = .unreadable error ∧ crash = error.crash) ∨
      ∃ call, course = .called call ∧ call.reply.outcome = .error (.crash crash) := by
  cases course with
  | refused | blocked | empty | unknown => cases h
  | unreadable error =>
    cases h
    exact .inl ⟨error, rfl, rfl⟩
  | called call =>
    rw [aftermath, Reply.aftermath] at h
    split at h
    · cases h
    · cases h
    · next other houtcome =>
      cases h
      exact .inr ⟨call, rfl, houtcome⟩

namespace CommandTable

variable (table : CommandTable)

/-- The course of a command that has been parsed and whose redirects have been carried out. -/
def dispatched (scene : Scene) (own : StreamSet) (invocation : Invocation) : Course :=
  match invocation.command with
  | none => .empty scene
  | some name =>
    match table.handler? scene.memory name with
    | none => .unknown name own.err scene
    | some handler => .called ⟨handler, invocation, own, scene⟩

/-- The course of a command that has been parsed. -/
def invoked (streams : StreamSet) (scene : Scene) (invocation : Invocation) : Course :=
  match World.carryOut scene.world.environment.cwd scene.world streams
      invocation.redirects.entries with
  | (.error error, opened) => .blocked error { scene with world := opened }
  | (.ok own, opened) => table.dispatched { scene with world := opened } own invocation

/-- The course of a command on the streams of a line. -/
def course (streams : StreamSet) (scene : Scene) (tokens : List Token) : Course :=
  match Invocation.ofTokens scene.world.environment scene.world.files tokens with
  | .ok invocation => table.invoked streams scene invocation
  | .error (.refused error) => .refused error
  | .error (.numeral error) => .unreadable error

variable {table} in
/-- A command that can be parsed takes the course of what it is parsed as. -/
theorem course_of_parse {scene : Scene} {tokens : List Token} {invocation : Invocation}
    (h : Invocation.ofTokens scene.world.environment scene.world.files tokens = .ok invocation)
    (streams : StreamSet) :
    table.course streams scene tokens = table.invoked streams scene invocation := by
  rw [course, h]

variable {table} in
/-- Only handlers of the table are called. -/
theorem handler_of_course {streams : StreamSet} {scene : Scene} {tokens : List Token}
    {call : HandlerCall} (h : table.course streams scene tokens = .called call) :
    ∃ name, table.handler? scene.memory name = some call.handler := by
  rw [course] at h
  cases hparse : Invocation.ofTokens scene.world.environment scene.world.files tokens with
  | error failure => cases failure <;> simp [hparse] at h
  | ok invocation =>
    simp only [hparse, invoked] at h
    split at h
    · cases h
    · rw [dispatched] at h
      cases hname : invocation.command with
      | none => simp [hname] at h
      | some name =>
        cases hhandler : table.handler? scene.memory name with
        | none => simp [hname, hhandler] at h
        | some handler =>
          simp only [hname, hhandler, Course.called.injEq] at h
          subst h
          exact ⟨name, hhandler⟩

/-- What a command comes to on the streams of a line. -/
def aftermath (streams : StreamSet) (scene : Scene) (tokens : List Token) : Aftermath :=
  (table.course streams scene tokens).aftermath streams scene

end CommandTable

/-! ## Running a command -/

namespace Action

variable {table : CommandTable} {streams : StreamSet} {progress : Progress}

/-- A fault is reported in a line, and nothing else changes but the log. -/
theorem report_aftermath (fault : Fault) (command : Option Text) (err : Handle)
    (progress : Progress) :
    ∃ log, (do report fault command err; return ExitCode.failure : Action Crash Int) progress =
      ((Aftermath.reported fault err progress.scene).since progress.stops).result log := by
  rw [Aftermath.reported, Aftermath.since_silent]
  exact ⟨_, rfl⟩

/-- A handler that is called comes to what it replies. -/
theorem handle_aftermath (handler : Handler) (invocation : Invocation) (streams : StreamSet)
    (progress : Progress) :
    ∃ log, handle handler invocation streams progress =
      (((handler invocation streams progress.memory progress.world).aftermath streams.err).since
        progress.stops).result log := by
  generalize hreply : handler invocation streams progress.memory progress.world = reply
  let after : Progress := { reply.progress with
    stops := progress.stops || reply.progress.stops, log := progress.log ++ reply.progress.log }
  have hrun : (handler.run invocation streams : Action Crash _) progress =
      .ok reply.outcome after := by
    rw [Handler.run, hreply]
  rw [handle, bind_ok hrun, Reply.aftermath]
  cases reply.outcome with
  | ok code => exact ⟨_, rfl⟩
  | error trouble =>
    cases trouble with
    | crash crash => exact ⟨_, rfl⟩
    | mishap mishap =>
      rw [Aftermath.since_since]
      exact report_aftermath mishap.fault invocation.command streams.err after

/-- A command that has been parsed and redirected comes to the aftermath of its course. -/
theorem dispatch_aftermath (invocation : Invocation) (own streams : StreamSet) (scene : Scene)
    (progress : Progress) :
    ∃ log, dispatch table invocation own progress =
      (((table.dispatched progress.scene own invocation).aftermath streams scene).since
        progress.stops).result log := by
  rw [dispatch, CommandTable.dispatched]
  cases invocation.command with
  | none =>
    rw [Course.aftermath, Aftermath.since_silent]
    exact ⟨_, rfl⟩
  | some name =>
    have hmemory : (memory : Action Crash Memory) progress = .ok progress.scene.memory progress :=
      rfl
    dsimp only
    rw [bind_ok hmemory]
    cases table.handler? progress.scene.memory name with
    | none =>
      rw [Course.aftermath, Aftermath.since_silent]
      exact ⟨_, rfl⟩
    | some handler => exact handle_aftermath handler invocation own progress

/-- A command that has been parsed comes to the aftermath of its course. -/
theorem invoke_aftermath (invocation : Invocation) (progress : Progress) :
    ∃ log, invoke table streams invocation progress =
      (((table.invoked streams progress.scene invocation).aftermath streams progress.scene).since
        progress.stops).result log := by
  obtain ⟨log, hredirect⟩ := @attempt_redirect Crash progress.world.environment.cwd
    invocation.redirects.entries streams progress
  rw [invoke, bind_ok (world_ok progress), bind_ok hredirect, CommandTable.invoked,
    Progress.world_scene]
  cases World.carryOut progress.world.environment.cwd progress.world streams
      invocation.redirects.entries with
  | mk outcome opened =>
    cases outcome with
    | error error => exact report_aftermath (Mishap.file error).fault none streams.err _
    | ok own =>
      exact dispatch_aftermath invocation own streams progress.scene
        { progress with world := opened, log := log }

/-- A command comes to the aftermath of its course, whatever was logged before it. The shell has
been asked to stop if it was before or is now. -/
theorem runCommand_aftermath (table : CommandTable) (streams : StreamSet) (tokens : List Token)
    (progress : Progress) :
    ∃ log, runCommand table streams tokens progress =
      ((table.aftermath streams progress.scene tokens).since progress.stops).result log := by
  obtain ⟨log, hlog⟩ := @logAll_ok Crash
    (Journal.ofCommand progress.world.environment progress.world.files tokens) progress
  rw [runCommand, bind_ok (world_ok progress), bind_ok hlog, CommandTable.aftermath,
    CommandTable.course, Progress.world_scene]
  cases Invocation.ofTokens progress.world.environment progress.world.files tokens with
  | ok invocation => exact invoke_aftermath invocation { progress with log := log }
  | error failure =>
    cases failure with
    | refused error => exact report_aftermath error.fault none streams.err _
    | numeral error =>
      rw [Course.aftermath, Aftermath.since_silent]
      exact ⟨_, rfl⟩

end Action

end MemShell
