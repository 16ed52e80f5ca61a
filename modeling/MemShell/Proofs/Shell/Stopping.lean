import MemShell.Proofs.Command.Redirects
import MemShell.Proofs.Shell.Channels

/-!
# Redirects that stop a command

The files of the redirects of a command are opened in the order in which its streams are first
redirected, and the first one that cannot be opened stops the command. Main statement: what has been
opened stays open and unused, the error is one line on the errors of the line, no handler is run,
and the commands behind it are.
-/

namespace MemShell

/-- A map after the files of redirects have been opened one after the other. -/
def FileMap.touchAll (cwd : Text) (redirects : List (Int × Redirect)) (map : FileMap) : FileMap :=
  redirects.foldl (fun map entry => map.touch (entry.2.path cwd).parts entry.2.mode.openMode) map

namespace World

variable {world : World} {cwd : Text} {redirects front : List (Int × Redirect)}

/-! ## Writing through a handle -/

section Write

variable {handle : Handle}

/-- Writing through a handle leaves the variables. -/
theorem environment_write (world : World) (handle : Handle) (text : Text) :
    (world.write handle text).environment = world.environment := by
  rw [write]
  split <;> rfl

/-- Writing through a handle leaves what is behind the others. -/
theorem endpoints_write {other : Handle} (hother : other ≠ handle) (world : World) (text : Text) :
    (world.write handle text).endpoints[other]? = world.endpoints[other]? := by
  rw [write]
  split
  · exact List.getElem?_set_ne (Ne.symm hother)
  · rfl
  · rfl

/-- Writing through a handle gives out no other. -/
theorem length_endpoints_write (world : World) (handle : Handle) (text : Text) :
    (world.write handle text).endpoints.length = world.endpoints.length := by
  rw [write]
  split
  · exact List.length_set
  · rfl
  · rfl

/-- Writing through a handle leaves every node where it is. -/
theorem stat_write (world : World) (handle : Handle) (text : Text) (names : List Text) :
    (world.write handle text).files.stat names = world.files.stat names := by
  obtain ⟨inode, contents, hfiles⟩ | hfiles := world.files_write handle text <;> rw [hfiles]
  rfl

/-- Writing through a handle changes nothing that is seen but the file that it is on. -/
theorem look_write {names : List Text}
    (h : ∀ inode, world.IsOn handle inode → world.files.stat names ≠ some (.file, inode))
    (text : Text) : (world.write handle text).files.look names = world.files.look names := by
  rw [write]
  split
  · next stream hstream =>
    cases stream with
    | file inode pointer =>
      rw [FileSystem.look_eq, FileSystem.look_eq]
      change FileSystem.View.ofStat _ (world.files.stat names) = _
      cases hstat : world.files.stat names with
      | none => rfl
      | some found =>
        obtain ⟨kind, number⟩ := found
        cases kind with
        | directory | null => rfl
        | file =>
          have hne : number ≠ inode := by
            rintro rfl
            exact h number ⟨pointer, hstream⟩ hstat
          exact congrArg FileSystem.View.file (Disk.read_write_of_ne _ hne _)
    | buffer unread | null => rfl
  · rfl
  · rfl

end Write

/-! ## Opening files up to one that cannot be opened -/

/-- Opening files leaves the variables. -/
theorem environment_run_openings (world : World) (cwd : Text) (redirects : List (Int × Redirect)) :
    (world.run (openings cwd redirects)).environment = world.environment := by
  induction redirects generalizing world with
  | nil => rfl
  | cons entry redirects ih =>
    refine (ih _).trans ?_
    change (world.opened _ _).environment = _
    rw [opened]
    split <;> rfl

/-- Files that can be opened one after the other get a handle each. -/
theorem OpensAll.length_endpoints (h : world.OpensAll cwd redirects) :
    (world.run (openings cwd redirects)).endpoints.length =
      world.endpoints.length + redirects.length := by
  induction redirects generalizing world with
  | nil => rfl
  | cons entry redirects ih =>
    obtain ⟨⟨stream, files, hopen⟩, hrest⟩ := h
    refine (ih hrest).trans ?_
    rw [opened_ok hopen, List.length_append, List.length_singleton, List.length_cons]
    omega

/-- Files that can be opened one after the other are made or emptied where they have to be, and
nothing else changes. -/
theorem OpensAll.look_openings (h : world.OpensAll cwd redirects)
    (hnumbered : world.files.Numbered) :
    (world.run (openings cwd redirects)).files.look =
      FileMap.touchAll cwd redirects world.files.look := by
  induction redirects generalizing world with
  | nil => rfl
  | cons entry redirects ih =>
    obtain ⟨⟨stream, files, hopen⟩, hrest⟩ := h
    refine (ih hrest (numbered_opened hnumbered _ _)).trans ?_
    rw [(keeps_opened hnumbered hopen).1]
    rfl

/-- Files of redirects are opened one after the other up to one that cannot be opened. -/
structure FailsAt (world : World) (cwd : Text) (redirects front : List (Int × Redirect))
    (failing : Redirect) (error : FileError) : Prop where
  /-- The failing redirect comes behind the ones in front. -/
  split : ∃ number back, redirects = front ++ (number, failing) :: back
  /-- The files in front can be opened. -/
  opens : world.OpensAll cwd front
  /-- After them the file of the failing redirect cannot be opened. -/
  fails : ∃ files, FileSystem.openAt (failing.path cwd) failing.mode.openMode
    (world.run (openings cwd front)).files = .error error files

/-- Unless files can be opened one after the other, one of them is the first that cannot. -/
theorem opensAll_or_failsAt (world : World) (cwd : Text) (redirects : List (Int × Redirect)) :
    world.OpensAll cwd redirects ∨
      ∃ front failing error, world.FailsAt cwd redirects front failing error := by
  induction redirects generalizing world with
  | nil => exact .inl trivial
  | cons entry redirects ih =>
    obtain ⟨number, redirect⟩ := entry
    cases hopen : FileSystem.openAt (redirect.path cwd) redirect.mode.openMode world.files with
    | error error files =>
      exact .inr ⟨[], redirect, error, ⟨number, redirects, rfl⟩, trivial, files, hopen⟩
    | ok stream files =>
      refine (ih (world.opened (redirect.path cwd) redirect.mode.openMode)).imp ?_ ?_
      · exact fun hrest => ⟨⟨stream, files, hopen⟩, hrest⟩
      · rintro ⟨front, failing, error, ⟨other, back, rfl⟩, hopens, hfails⟩
        exact ⟨(number, redirect) :: front, failing, error, ⟨other, back, rfl⟩,
          ⟨⟨stream, files, hopen⟩, hopens⟩, hfails⟩

/-- Redirects are carried out up to the one that fails. -/
theorem FailsAt.carryOut {failing : Redirect} {error : FileError}
    (h : world.FailsAt cwd redirects front failing error) (streams : StreamSet) :
    carryOut cwd world streams redirects = (.error error, world.run (openings cwd front)) := by
  obtain ⟨⟨number, back, rfl⟩, hopens, files, hfails⟩ := h
  rw [carryOut_append hopens, World.carryOut, hfails]

/-- A world has become another by a command whose redirects have been carried out up to one that
cannot be. -/
structure StopsAt (world : World) (streams : StreamSet) (front : List (Int × Redirect))
    (error : FileError) (after : World) : Prop where
  /-- The files in front have been opened, and then the error has been written as a line. -/
  eq_writeLine : after = (world.run (openings world.environment.cwd front)).writeLine streams.err
    (Mishap.file error).fault.message.display
  /-- The variables are as before. -/
  environment : after.environment = world.environment
  /-- Each file in front has got a new handle. -/
  length_endpoints : after.endpoints.length = world.endpoints.length + front.length
  /-- Nothing has been written through any other handle than that of the errors, be it old or new.
  -/
  endpoints : ∀ handle ≠ streams.err, after.endpoints[handle]? =
    (world.run (openings world.environment.cwd front)).endpoints[handle]?
  /-- The old handles lead where they did. -/
  kept : ∀ handle < world.endpoints.length, handle ≠ streams.err →
    after.endpoints[handle]? = world.endpoints[handle]?
  /-- The files in front have been made or emptied where they had to be. Nothing else is seen to
  have changed, but for a file that the errors of the line go to. -/
  look : ∀ names,
    (∀ inode, world.IsOn streams.err inode → after.files.stat names ≠ some (.file, inode)) →
      after.files.look names = FileMap.touchAll world.environment.cwd front world.files.look names

/-- Once the files in front of the failing redirect have been opened and the error has been written,
this and nothing else has happened. -/
theorem FailsAt.stopsAt {streams : StreamSet} {failing : Redirect} {error : FileError}
    (h : world.FailsAt world.environment.cwd redirects front failing error)
    (hnumbered : world.files.Numbered) (herr : streams.err < world.endpoints.length) :
    world.StopsAt streams front error
      ((world.run (openings world.environment.cwd front)).writeLine streams.err
        (Mishap.file error).fault.message.display) := by
  have hkeeps := h.opens.keeps hnumbered
  have hkept : ∀ handle < world.endpoints.length,
      (world.run (openings world.environment.cwd front)).endpoints[handle]? =
        world.endpoints[handle]? := by
    intro handle hhandle
    exact (hkeeps.endpoints not_false (List.getElem?_eq_getElem hhandle)).trans
      (List.getElem?_eq_getElem hhandle).symm
  refine ⟨rfl, ?_, ?_, fun handle hne => endpoints_write hne _ _, fun handle hlt hne => ?_,
    fun names hnames => ?_⟩
  · exact (environment_write _ _ _).trans (environment_run_openings world _ front)
  · exact (length_endpoints_write _ _ _).trans h.opens.length_endpoints
  · exact (endpoints_write hne _ _).trans (hkept handle hlt)
  · -- The errors go where they went before the files were opened, and the nodes stay there.
    rw [← h.opens.look_openings hnumbered]
    refine look_write (fun inode hon hstat => ?_) _
    obtain ⟨pointer, hpointer⟩ := hon
    refine hnames inode ⟨pointer, (hkept _ herr).symm.trans hpointer⟩ ?_
    exact (stat_write _ _ _ _).trans hstat

end World

namespace Action

variable {streams : StreamSet} {progress : Progress}

/-- A command that can be parsed is run as it has been parsed, whatever handlers there are. -/
theorem runCommand_of_parse {tokens : List Token} {invocation : Invocation}
    (hparse : Invocation.ofTokens progress.world.environment progress.world.files tokens =
      .ok invocation) :
    ∃ log, ∀ table streams, runCommand table streams tokens progress =
      invoke table streams invocation { progress with log := log } := by
  obtain ⟨log, hlog⟩ := @logAll_ok Crash
    (Journal.ofCommand progress.world.environment progress.world.files tokens) progress
  refine ⟨log, fun table streams => ?_⟩
  rw [runCommand, bind_ok (world_ok progress), bind_ok hlog, hparse]

/-- A fault is reported in a line, and nothing else changes in the world. -/
theorem report_ok {ε : Type} (fault : Fault) (command : Option Text) (err : Handle)
    (progress : Progress) :
    ∃ after, (report fault command err : Action ε Unit) progress = .ok () after ∧
      after.world = progress.world.writeLine err fault.message.display :=
  ⟨_, rfl, rfl⟩

/-- A parsed command with a redirect that fails gives the exit code of a failure after the error has
been written, whatever handlers there are. -/
theorem invoke_error {invocation : Invocation} {front : List (Int × Redirect)} {failing : Redirect}
    {error : FileError}
    (h : progress.world.FailsAt progress.world.environment.cwd invocation.redirects.entries front
      failing error) (streams : StreamSet) :
    ∃ after, (∀ table, invoke table streams invocation progress = .ok ExitCode.failure after) ∧
      after.world = (progress.world.run (openings progress.world.environment.cwd front)).writeLine
        streams.err (Mishap.file error).fault.message.display := by
  obtain ⟨log, hredirect⟩ := @attempt_redirect Crash progress.world.environment.cwd
    invocation.redirects.entries streams progress
  rw [h.carryOut streams] at hredirect
  obtain ⟨after, hreport, hafter⟩ :=
    @report_ok Crash (Mishap.file error).fault none streams.err { progress with
      world := progress.world.run (openings progress.world.environment.cwd front), log := log }
  refine ⟨after, fun table => ?_, hafter⟩
  rw [invoke, bind_ok (world_ok progress), bind_ok hredirect]
  exact bind_ok hreport

/-- A command that can be parsed opens the files of its redirects in the order in which the streams
are first redirected, each by the last of its redirects. If one cannot be opened the command gives
the exit code of a failure, whatever handlers there are, and the commands behind it run from there.
The files in front of the failing one have been opened and not been written to, the error is a line
on the errors of the line, and nothing else has changed. -/
theorem redirect_stops {tokens : List Token} {invocation : Invocation}
    (hparse : Invocation.ofTokens progress.world.environment progress.world.files tokens =
      .ok invocation)
    (hnumbered : progress.world.files.Numbered)
    (herr : streams.err < progress.world.endpoints.length) :
    (invocation.redirects.keys = (tokens.filterMap Token.stream?).eraseDups ∧
      ∀ entry ∈ invocation.redirects.entries,
        LastRedirect (Word.expand progress.world.environment progress.world.files) tokens
          entry.1 entry.2) ∧
    (progress.world.OpensAll progress.world.environment.cwd invocation.redirects.entries ∨
      ∃ front failing error, progress.world.FailsAt progress.world.environment.cwd
        invocation.redirects.entries front failing error) ∧
    ∀ front failing error, progress.world.FailsAt progress.world.environment.cwd
        invocation.redirects.entries front failing error →
      ∃ after, progress.world.StopsAt streams front error after.world ∧
        ∀ table, runCommand table streams tokens progress = .ok ExitCode.failure after ∧
          ∀ code later, runCommands table streams code (tokens :: later) progress =
            runCommands table streams ExitCode.failure later after := by
  refine ⟨Invocation.redirects_ofTokens hparse, progress.world.opensAll_or_failsAt _ _,
    fun front failing error hfails => ?_⟩
  have hstops := hfails.stopsAt hnumbered herr
  -- The table comes in only after the redirects, so what is left does not depend on it.
  obtain ⟨log, hinvoke⟩ := runCommand_of_parse hparse
  obtain ⟨after, hfailure, hafter⟩ :=
    @invoke_error { progress with log := log } _ _ _ _ hfails streams
  have hcommand (table : CommandTable) :
      runCommand table streams tokens progress = .ok ExitCode.failure after :=
    (hinvoke table streams).trans (hfailure table)
  refine ⟨after, by rwa [hafter], fun table => ⟨hcommand table, fun code later => ?_⟩⟩
  rw [runCommands, bind_ok (hcommand table)]

/-- Two files. -/
def drawer : List (Text × Tree) := [(['k'], .file "kept"), (['l'], .file "old")]

/-- A world with the two files and three buffers. -/
def ledger : World :=
  { World.blank [] with
    files := .ofEntries drawer
    endpoints := List.replicate 3 (.stream (.buffer [])) }

/-- A command whose output is redirected twice, and a stream that no command has to a file in a
directory that is not there. -/
def misfiled : List Token :=
  [.word (Word.quote ['w']), .redirect [] .write, .word (Word.quote ['g']), .redirect ['2'] .append,
    .word (Word.quote ['l']), .redirect ['3'] .write, .word (Word.quote "m/n"),
    .redirect ['1'] .write, .word (Word.quote ['k'])]

theorem redirect_stops_ledger :
    ∃ after, (∀ table, runCommand table ⟨0, 1, 2⟩ misfiled (.start ledger) =
        .ok ExitCode.failure after) ∧
      after.world.endpoints[2]? =
        some (.stream (.buffer "File or directory not found: /m\n")) ∧
      after.world.files.look [['k']] = .file [] ∧ after.world.files.look [['l']] = .file "old" ∧
      after.world.files.look [['g']] = .absent := by
  have hgathered : Gathered.ofTokens (Word.expand ledger.environment ledger.files) misfiled =
      .ok ⟨[['w']], [(1, ⟨.write, ['g']⟩), (2, ⟨.append, ['l']⟩), (3, ⟨.write, "m/n"⟩),
        (1, ⟨.write, ['k']⟩)]⟩ := by
    simp only [misfiled, Gathered.ofTokens, Word.expand_quote]
    rfl
  have hparse : Invocation.ofTokens ledger.environment ledger.files misfiled =
      .ok ⟨some ['w'], .ofList [], [], .ofList [(1, ⟨.write, ['k']⟩), (2, ⟨.append, ['l']⟩),
        (3, ⟨.write, "m/n"⟩)]⟩ := by
    rw [Invocation.ofTokens, hgathered]
    rfl
  have hfails : ledger.FailsAt ledger.environment.cwd
      [(1, ⟨.write, ['k']⟩), (2, ⟨.append, ['l']⟩), (3, ⟨.write, "m/n"⟩)]
      [(1, ⟨.write, ['k']⟩), (2, ⟨.append, ['l']⟩)] ⟨.write, "m/n"⟩
      (.notFound (Path.ofText ['m'])) :=
    ⟨⟨3, [], rfl⟩, ⟨⟨_, _, rfl⟩, ⟨_, _, rfl⟩, trivial⟩, _, rfl⟩
  have hnumbered : ledger.files.Numbered := FileSystem.numbered_ofEntries drawer
  obtain ⟨-, -, hstops⟩ :=
    @redirect_stops ⟨0, 1, 2⟩ (.start ledger) misfiled _ hparse hnumbered (by decide)
  obtain ⟨after, hstopsAt, hrun⟩ := hstops _ _ _ hfails
  have hlook (names : List Text) : after.world.files.look names =
      FileMap.touchAll ledger.environment.cwd [(1, ⟨.write, ['k']⟩), (2, ⟨.append, ['l']⟩)]
        ledger.files.look names := by
    refine hstopsAt.look names fun inode hon => ?_
    obtain ⟨pointer, hbuffer⟩ := hon
    cases hbuffer
  refine ⟨after, fun table => (hrun table).1, ?_, (hlook _).trans rfl, (hlook _).trans rfl,
    (hlook _).trans rfl⟩
  rw [hstopsAt.eq_writeLine]
  rfl

end Action

end MemShell
