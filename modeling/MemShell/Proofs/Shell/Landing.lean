import MemShell.Proofs.Command.Redirects
import MemShell.Proofs.Shell.Channels
import MemShell.Proofs.Shell.Orderly
import MemShell.Proofs.Word.Quoting

/-!
# Where output lands

A command with redirects first opens their files and then writes through the handles that it has
got. Of several redirects of a stream the last one counts. Main statement: what a command writes to
a channel comes to the file of its redirect, or to the stream of the shell if there is none, and
nothing else changes.
-/

namespace MemShell

/-- What is seen of a file that has been opened for a redirect and then got a text: of a file the
mode keeps or drops what was in it, a missing file is made, and a null file stays empty. -/
def RedirectMode.deliver (mode : RedirectMode) (text : Text) : FileSystem.View → FileSystem.View
  | .absent => .file text
  | .file before => .file ((if mode = .append then before else []) ++ text)
  | .null => .null
  | .directory => .directory

/-- The file of a redirect that is opened and then gets a text is seen as the redirect says. -/
theorem RedirectMode.deliver_eq (map : FileMap) (place : List Text) (mode : RedirectMode)
    (text : Text) :
    mode.deliver text (map place) =
      match map.touch place mode.openMode place with
      | .file contents => .file (contents ++ text)
      | view => view := by
  rw [FileMap.touch, if_pos rfl]
  cases map place with
  | file before => cases mode <;> rfl
  | absent | directory | null => rfl

/-- A handler does nothing but write texts to the channels of a command one after the other, and
gives an exit code, whatever the shell remembers. -/
structure Handler.Emits (handler : Handler) (invocation : Invocation) (own : StreamSet)
    (world : World) (outputs : List (Channel × Text)) (code : Int) : Prop where
  /-- It succeeds with the exit code. -/
  outcome : ∀ memory, (handler invocation own memory world).outcome = .ok code
  /-- It leaves the world in which the texts have been written. -/
  world : ∀ memory, (handler invocation own memory world).progress.world = world.emit own outputs

namespace World

/-- In a world, the channels of a shell are different buffers, and the redirects of a command lead
to different files that can all be opened. -/
structure Redirects (world : World) (streams : StreamSet) (held : Channel → Text)
    (redirect? : Int → Option Redirect) : Prop where
  /-- Numbers tell files apart. -/
  numbered : world.files.Numbered
  /-- Each channel is a buffer. -/
  buffer : ∀ channel,
    world.endpoints[streams.handle channel]? = some (.stream (.buffer (held channel)))
  /-- The buffers are different. -/
  out_ne_err : streams.out ≠ streams.err
  /-- Each file can be opened. -/
  opens : ∀ {number redirect}, redirect? number = some redirect → ∃ stream files,
    FileSystem.openAt (redirect.path world.environment.cwd) redirect.mode.openMode world.files =
      .ok stream files
  /-- The files are different. -/
  apart : ∀ {number other redirect another}, redirect? number = some redirect →
    redirect? other = some another → (redirect.path world.environment.cwd).parts =
      (another.path world.environment.cwd).parts → number = other

/-- A world has become another by a command whose output went where its redirects say. -/
structure Lands (world : World) (streams : StreamSet) (held : Channel → Text)
    (redirect? : Int → Option Redirect) (outputs : List (Channel × Text)) (after : World) :
    Prop where
  /-- The file of a redirect gets what is written to its stream. -/
  file : ∀ {number redirect}, redirect? number = some redirect →
    after.files.look (redirect.path world.environment.cwd).parts =
      redirect.mode.deliver (sentTo number outputs)
        (world.files.look (redirect.path world.environment.cwd).parts)
  /-- All other places look as before. -/
  beside : ∀ names, (∀ number redirect, redirect? number = some redirect →
    names ≠ (redirect.path world.environment.cwd).parts) →
      after.files.look names = world.files.look names
  /-- A channel that is not redirected gets what is written to it, behind what it held. -/
  kept : ∀ {channel : Channel}, redirect? channel.number = none →
    after.endpoints[streams.handle channel]? =
      some (.stream (.buffer (held channel ++ sentTo channel.number outputs)))
  /-- A channel of the shell that is redirected gets nothing. -/
  replaced : ∀ {channel : Channel}, redirect? channel.number ≠ none →
    after.endpoints[streams.handle channel]? = some (.stream (.buffer (held channel)))

variable {world : World} {streams : StreamSet} {held : Channel → Text}

/-- A file that is a sink is seen with the texts that have come to it. -/
theorem LeadsTo.look_ofView {handle : Handle} {place : List Text} {contents text : Text}
    (h : world.LeadsTo handle ((Sink.ofView place (.file contents)).add text)) :
    world.files.look place = .file (contents ++ text) := by
  cases h with
  | file _ _ hlook => exact hlook

/-- A buffer that is a sink holds the texts that have come to it. -/
theorem LeadsTo.endpoint_buffer {handle : Handle} {held text : Text}
    (h : world.LeadsTo handle ((Sink.buffer held).add text)) :
    world.endpoints[handle]? = some (.stream (.buffer (held ++ text))) := by
  cases h with
  | buffer h => exact h

/-- The streams of a command whose redirects are carried out in a world. -/
def ownStreams (world : World) (streams : StreamSet) (redirects : OrderedMap Int Redirect) :
    StreamSet :=
  streams.redirectedFrom world.endpoints.length redirects.entries

/-- The world in which the files of redirects have been opened one after the other. -/
def openedAll (world : World) (redirects : OrderedMap Int Redirect) : World :=
  world.run (openings world.environment.cwd redirects.entries)

section Sinks

variable {redirects : OrderedMap Int Redirect}

/-- The sink of a channel once the files of the redirects have been opened. -/
def sinkOf (world : World) (held : Channel → Text) (redirects : OrderedMap Int Redirect)
    (channel : Channel) : Sink :=
  match redirects.get? channel.number with
  | none => .buffer (held channel)
  | some redirect =>
    .ofView (redirect.path world.environment.cwd).parts
      (FileMap.touch world.files.look (redirect.path world.environment.cwd).parts
        redirect.mode.openMode (redirect.path world.environment.cwd).parts)

/-- A file is the sink of a channel only if the channel is redirected to it. -/
theorem redirect_of_place?_sinkOf {channel : Channel} {place : List Text}
    (h : (world.sinkOf held redirects channel).place? = some place) :
    ∃ redirect, redirects.get? channel.number = some redirect ∧
      (redirect.path world.environment.cwd).parts = place := by
  rw [sinkOf] at h
  cases hredirect : redirects.get? channel.number with
  | none =>
    rw [hredirect] at h
    cases h
  | some redirect =>
    rw [hredirect] at h
    exact ⟨redirect, rfl, (Sink.place?_ofView_eq_some_iff.1 h).1.symm⟩

namespace Redirects

variable (h : world.Redirects streams held redirects.get?)

include h

/-- The handles of different channels are different. -/
theorem handle_inj {channel other : Channel}
    (heq : streams.handle channel = streams.handle other) : channel = other := by
  cases channel <;> cases other <;>
    first | rfl | exact absurd heq h.out_ne_err | exact absurd heq.symm h.out_ne_err

/-- The handle of a channel has been given out. -/
theorem handle_lt (channel : Channel) : streams.handle channel < world.endpoints.length :=
  (List.getElem?_eq_some_iff.1 (h.buffer channel)).1

/-- The redirects lead to different places. -/
theorem nodup_placesOf : (placesOf world.environment.cwd redirects.entries).Nodup := by
  refine List.pairwise_map.2 ((List.pairwise_map.1 redirects.nodup).imp_of_mem ?_)
  intro entry other hentry hother hne heq
  exact hne (h.apart ((Assoc.lookup_eq_some_iff redirects.nodup).2 hentry)
    ((Assoc.lookup_eq_some_iff redirects.nodup).2 hother) heq)

/-- The files of the redirects can be opened one after the other. -/
theorem opensAll : world.OpensAll world.environment.cwd redirects.entries := by
  refine opensAll_of_canOpen h.numbered h.nodup_placesOf fun entry hentry => ?_
  exact (FileSystem.exists_openAt_iff entry.2.mode.openMode_ne_read).1
    (h.opens ((Assoc.lookup_eq_some_iff redirects.nodup).2 hentry))

/-- Once the files of the redirects have been opened every channel leads to its sink. -/
theorem feeds :
    (world.openedAll redirects).Feeds (world.ownStreams streams redirects)
      (world.sinkOf held redirects) where
  numbered := numbered_run h.numbered _
  leads channel := by
    rw [sinkOf, ownStreams]
    cases hredirect : redirects.get? channel.number with
    | none =>
      rw [StreamSet.handle_redirectedFrom_of_none hredirect]
      exact .buffer ((h.opensAll.keeps h.numbered).endpoints not_false (h.buffer channel))
    | some redirect =>
      exact h.opensAll.leadsTo h.numbered h.nodup_placesOf redirects.nodup hredirect streams
  handle_inj := StreamSet.handle_redirectedFrom_inj h.handle_inj h.handle_lt
  place_inj hplace hother := by
    obtain ⟨redirect, hredirect, rfl⟩ := redirect_of_place?_sinkOf hplace
    obtain ⟨another, hanother, heq⟩ := redirect_of_place?_sinkOf hother
    exact Channel.number_inj (h.apart hredirect hanother heq.symm)

/-- The file of a redirect is seen as the redirect says. -/
theorem look_emit (outputs : List (Channel × Text)) {number : Int} {redirect : Redirect}
    (hredirect : redirects.get? number = some redirect) :
    ((world.openedAll redirects).emit (world.ownStreams streams redirects) outputs).files.look
        (redirect.path world.environment.cwd).parts =
      redirect.mode.deliver (sentTo number outputs)
        (world.files.look (redirect.path world.environment.cwd).parts) := by
  obtain ⟨hfeeds, hkeeps⟩ := h.feeds.emit outputs
  have hopened := h.opensAll.look h.numbered h.nodup_placesOf
    ((Assoc.lookup_eq_some_iff redirects.nodup).1 hredirect)
  rw [RedirectMode.deliver_eq]
  by_cases hsink : ∃ channel, (world.sinkOf held redirects channel).place? =
      some (redirect.path world.environment.cwd).parts
  · obtain ⟨channel, hchannel⟩ := hsink
    obtain ⟨another, hanother, heq⟩ := redirect_of_place?_sinkOf hchannel
    have hnumber : channel.number = number := h.apart hanother hredirect heq
    have hleads := hfeeds.leads channel
    simp only [sinkOf, hnumber, hredirect] at hleads hchannel
    obtain ⟨-, contents, hview⟩ := Sink.place?_ofView_eq_some_iff.1 hchannel
    rw [hview] at hleads ⊢
    exact hleads.look_ofView
  · -- no channel leads to the file, which is left as it has been opened
    rw [hkeeps.look hsink, openedAll, hopened]
    split
    · next contents hview =>
      have hnone : ∀ channel : Channel, channel.number ≠ number := by
        rintro channel rfl
        refine hsink ⟨channel, ?_⟩
        simp only [sinkOf, hredirect]
        exact Sink.place?_ofView_eq_some_iff.2 ⟨rfl, contents, hview⟩
      rw [hview, sentTo_eq_nil hnone, List.append_nil]
    · rfl

/-- The output of a command that does nothing but write lands where its redirects say. -/
theorem lands (outputs : List (Channel × Text)) :
    world.Lands streams held redirects.get? outputs
      ((world.openedAll redirects).emit (world.ownStreams streams redirects) outputs) := by
  obtain ⟨hfeeds, hkeeps⟩ := h.feeds.emit outputs
  have hopened := h.opensAll.keeps h.numbered
  refine ⟨h.look_emit outputs, fun names hnames => ?_, fun {channel} hnone => ?_,
    fun {channel} hsome => ?_⟩
  · have hsink : ¬∃ channel, (world.sinkOf held redirects channel).place? = some names := by
      rintro ⟨channel, hchannel⟩
      obtain ⟨redirect, hredirect, heq⟩ := redirect_of_place?_sinkOf hchannel
      exact hnames _ redirect hredirect heq.symm
    have hplaces : names ∉ placesOf world.environment.cwd redirects.entries := by
      intro hmem
      obtain ⟨entry, hentry, heq⟩ := List.mem_map.1 hmem
      exact hnames _ entry.2 ((Assoc.lookup_eq_some_iff redirects.nodup).2 hentry) heq.symm
    exact (hkeeps.look hsink).trans (hopened.look hplaces)
  · have hleads := hfeeds.leads channel
    simp only [sinkOf, hnone] at hleads
    rw [ownStreams, StreamSet.handle_redirectedFrom_of_none hnone] at hleads
    exact hleads.endpoint_buffer
  · refine hkeeps.endpoints ?_ (hopened.endpoints not_false (h.buffer channel))
    rintro ⟨other, hother⟩
    rw [ownStreams] at hother
    -- a redirected channel has a new handle, and the handle of any other one is its own
    by_cases hredirect : redirects.get? other.number = none
    · rw [StreamSet.handle_redirectedFrom_of_none hredirect] at hother
      rw [h.handle_inj hother] at hredirect
      exact hsome hredirect
    · have hnew := @StreamSet.le_handle_redirectedFrom streams world.endpoints.length _ _ hredirect
      rw [hother] at hnew
      exact absurd (h.handle_lt channel) (Nat.not_lt.2 hnew)

end Redirects

end Sinks

end World

/-- The output of a command that can be parsed and does nothing but write lands where its redirects
say. -/
theorem CommandTable.aftermath_lands {table : CommandTable} {streams : StreamSet} {scene : Scene}
    {tokens : List Token} {gathered : Gathered} {invocation : Invocation} {name : Text}
    {handler : Handler} {held : Channel → Text} {outputs : List (Channel × Text)} {code : Int}
    (hgathered : Gathered.ofTokens (Word.expand scene.world.environment scene.world.files) tokens =
      .ok gathered)
    (hinvocation : Invocation.ofGathered gathered = .ok invocation)
    (hname : invocation.command = some name)
    (hhandler : table.handler? scene.memory name = some handler)
    (hredirects : scene.world.Redirects streams held gathered.redirect?)
    (hemits : handler.Emits invocation (scene.world.ownStreams streams invocation.redirects)
      (scene.world.openedAll invocation.redirects) outputs code) :
    (table.aftermath streams scene tokens).outcome = .ok code ∧
      scene.world.Lands streams held gathered.redirect? outputs
        (table.aftermath streams scene tokens).scene.world := by
  have hsame : gathered.redirect? = invocation.redirects.get? :=
    funext fun number => (Invocation.redirect?_ofGathered hinvocation number).symm
  rw [hsame] at hredirects ⊢
  have hparse : Invocation.ofTokens scene.world.environment scene.world.files tokens =
      .ok invocation := by
    rw [Invocation.ofTokens, hgathered]
    simp only [hinvocation]
  let call : HandlerCall := ⟨handler, invocation,
    scene.world.ownStreams streams invocation.redirects,
    { scene with world := scene.world.openedAll invocation.redirects }⟩
  have hcourse : table.course streams scene tokens = .called call := by
    rw [course_of_parse hparse, invoked, World.carryOut_ok hredirects.opensAll]
    simp only [dispatched, hname, hhandler]
    rfl
  have hreply : call.reply.outcome = .ok code := hemits.outcome scene.memory
  have hlands := hredirects.lands outputs
  rw [← hemits.world scene.memory] at hlands
  rw [aftermath, hcourse, Course.aftermath, Reply.aftermath_ok hreply]
  exact ⟨rfl, hlands⟩

namespace Shell

variable {shell : Shell} {streams : StreamSet}

/-- The output of a command that can be parsed and does nothing but write lands where its redirects
say, both where the command is one of a line and where it is a line of its own. -/
theorem output_lands {tokens : List Token} {gathered : Gathered} {invocation : Invocation}
    {name : Text} {handler : Handler} {held : Channel → Text} {outputs : List (Channel × Text)}
    {code : Int}
    (hgathered : Gathered.ofTokens
      (Word.expand shell.world.environment shell.world.files) tokens = .ok gathered)
    (hinvocation : Invocation.ofGathered gathered = .ok invocation)
    (hname : invocation.command = some name)
    (hhandler : shell.table.handler? shell.toMemory name = some handler)
    (hredirects : shell.world.Redirects streams held gathered.redirect?)
    (hemits : handler.Emits invocation (shell.world.ownStreams streams invocation.redirects)
      (shell.world.openedAll invocation.redirects) outputs code) :
    (∀ progress : Progress, progress.world = shell.world →
      progress.memory.bindings = shell.bindings →
        ∃ after, Action.runCommand shell.table streams tokens progress = .ok code after ∧
          shell.world.Lands streams held gathered.redirect? outputs after.world) ∧
    ∀ line, Token.split line = .ok [tokens] →
      ∃ after, (execute streams line).run shell = .ok code after ∧
        shell.world.Lands streams held gathered.redirect? outputs after.world := by
  have hlands (memory : Memory) (hbindings : memory.bindings = shell.bindings) :
      (shell.table.aftermath streams ⟨shell.world, memory⟩ tokens).outcome = .ok code ∧
        shell.world.Lands streams held gathered.redirect? outputs
          (shell.table.aftermath streams ⟨shell.world, memory⟩ tokens).scene.world :=
    CommandTable.aftermath_lands hgathered hinvocation hname
      ((shell.table.handler?_congr hbindings name).trans hhandler) hredirects hemits
  refine ⟨fun progress hworld hbindings => ?_, fun line hline => ?_⟩
  · obtain ⟨log, hrun⟩ := Action.runCommand_aftermath shell.table streams tokens progress
    obtain ⟨houtcome, hlanded⟩ := hlands progress.memory hbindings
    have hsince : ((shell.table.aftermath streams ⟨shell.world, progress.memory⟩ tokens).since
        progress.stops).outcome = .ok code := houtcome
    rw [Progress.scene, hworld] at hrun
    exact ⟨_, hrun.trans (Aftermath.result_ok hsince log), hlanded⟩
  · obtain ⟨log, hrun⟩ := shell.execute_aftermath streams line
    obtain ⟨houtcome, hlanded⟩ := hlands (shell.entered line).memory rfl
    rw [CommandTable.lineAftermath_of_split hline] at hrun
    exact ⟨_, hrun.trans (result_ok houtcome log), hlanded⟩

/-- Words for the output and a word for the errors. -/
def dictation : List (Channel × Text) := [(.out, "one "), (.err, "sic"), (.out, "two")]

/-- The files of a clerk. -/
def records : List (Text × Tree) :=
  [(['l'], .file "old "), (['k'], .file "kept"), (['o'], .file "other")]

/-- A handler that writes texts. -/
def writing (outputs : List (Channel × Text)) : Handler := fun _ own memory world =>
  ⟨.ok ExitCode.success, ⟨world.emit own outputs, memory, false, []⟩⟩

/-- A shell on buffers, of which two hold a text already, with some files and a single command,
which writes the dictation. -/
def clerk : Shell :=
  { (default : Shell) with
    world := { World.blank [] with
      files := .ofEntries records
      endpoints := [.stream (.buffer []), .stream (.buffer "out:"), .stream (.buffer "err:")] }
    table := ⟨.empty, some (writing dictation), fun _ => none⟩
    streams := ⟨0, 1, 2⟩ }

/-- The redirects of a command, two of them for the output. -/
def filing : List (Int × Redirect) :=
  [(1, ⟨.write, ['g']⟩), (3, ⟨.write, ['k']⟩), (2, ⟨.append, ['l']⟩), (1, ⟨.append, ['n']⟩)]

/-- The command with its redirects. -/
def filingTokens : List Token :=
  [.word (Word.quote ['w']), .redirect [] .write, .word (Word.quote ['g']), .redirect ['3'] .write,
    .word (Word.quote ['k']), .redirect ['2'] .append, .word (Word.quote ['l']),
    .redirect [] .append, .word (Word.quote ['n'])]

/-- The line with the command. -/
def filingLine : Text :=
  ['\'', 'w', '\'', '>', '\'', 'g', '\'', ' ', '3', '>', '\'', 'k', '\'', ' ', '2', '>', '>', '\'',
    'l', '\'', ' ', '>', '>', '\'', 'n', '\'']

/-- The redirects of the command lead to different files that can be opened. -/
theorem redirects_filing :
    clerk.world.Redirects clerk.streams (fun | .out => "out:" | .err => "err:")
      (Gathered.mk [['w']] filing).redirect? := by
  have hcan : ∀ entry ∈ filing, FileMap.CanOpen clerk.world.files.look
      (entry.2.path clerk.world.environment.cwd) := by decide +kernel
  have hapart : ∀ entry ∈ filing, ∀ other ∈ filing,
      (entry.2.path clerk.world.environment.cwd).parts =
        (other.2.path clerk.world.environment.cwd).parts → entry.1 = other.1 := by decide +kernel
  refine ⟨FileSystem.numbered_ofEntries records, fun channel => ?_, by decide, fun h => ?_,
    fun h hother =>
      hapart _ (Gathered.mem_of_redirect? h) _ (Gathered.mem_of_redirect? hother)⟩
  · cases channel <;> rfl
  · exact (FileSystem.exists_openAt_iff (RedirectMode.openMode_ne_read _)).2
      (hcan _ (Gathered.mem_of_redirect? h))

theorem output_lands_clerk :
    ∃ after, (execute clerk.streams filingLine).run clerk = .ok 0 after ∧
      after.world.files.look [['n']] = .file "one two" ∧
      after.world.files.look [['l']] = .file "old sic" ∧
      after.world.files.look [['k']] = .file [] ∧
      after.world.files.look [['o']] = .file "other" ∧
      after.world.endpoints[1]? = some (.stream (.buffer "out:")) := by
  have hgathered : Gathered.ofTokens (Word.expand clerk.world.environment clerk.world.files)
      filingTokens = .ok ⟨[['w']], filing⟩ := by
    simp only [filingTokens, Gathered.ofTokens, Word.expand_quote]
    rfl
  obtain ⟨-, hline⟩ := @output_lands clerk clerk.streams filingTokens _ _ ['w'] _ _ dictation 0
    hgathered rfl rfl rfl redirects_filing ⟨fun _ => rfl, fun _ => rfl⟩
  have hsplit : Token.split filingLine = .ok [filingTokens] := rfl
  obtain ⟨after, hrun, hlands⟩ := hline _ hsplit
  have hfile {number : Int} {redirect : Redirect} {place : List Text} {view : FileSystem.View}
      (h : (Gathered.mk [['w']] filing).redirect? number = some redirect)
      (hplace : (redirect.path clerk.world.environment.cwd).parts = place)
      (hview : redirect.mode.deliver (sentTo number dictation) (clerk.world.files.look place) =
        view) : after.world.files.look place = view := by
    rw [← hview, ← hplace]
    exact hlands.file h
  have hout : (Gathered.mk [['w']] filing).redirect? Channel.out.number ≠ none := by decide
  have hother : ∀ entry ∈ filing, [['o']] ≠ (entry.2.path clerk.world.environment.cwd).parts := by
    decide +kernel
  refine ⟨after, hrun, @hfile 1 _ _ _ rfl (by decide +kernel) (by decide +kernel),
    @hfile 2 _ _ _ rfl (by decide +kernel) (by decide +kernel),
    @hfile 3 _ _ _ rfl (by decide +kernel) (by decide +kernel), ?_, hlands.replaced hout⟩
  refine (hlands.beside _ fun number redirect h => ?_).trans (by decide +kernel)
  exact hother _ (Gathered.mem_of_redirect? h)

end Shell

end MemShell
