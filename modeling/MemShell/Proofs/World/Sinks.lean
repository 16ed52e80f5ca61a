import MemShell.Proofs.Files.Opening
import MemShell.Proofs.World.Appending

/-!
# Where output goes

A handle that is written to leads to a buffer, to the end of a file, or to a null file. Two handles
that lead to different sinks do not get into each other's way: whatever order texts are written in,
each sink gets its own ones in their order, and nothing else changes.
-/

namespace MemShell

/-- Where the texts go that are written through a handle. -/
inductive Sink
  /-- A buffer, with the text in it that has not been read. -/
  | buffer (held : Text)
  /-- The end of the file at a place, with the text of the file. -/
  | file (place : List Text) (text : Text)
  /-- A null file. -/
  | null

namespace Sink

/-- A sink after a text has come to it. -/
def add (sink : Sink) (text : Text) : Sink :=
  match sink with
  | buffer held => buffer (held ++ text)
  | file place contents => file place (contents ++ text)
  | null => null

/-- The place of the file that a sink is. -/
def place? : Sink → Option (List Text)
  | file place _ => some place
  | buffer _ | null => none

/-- The sink that a file at a place is by what is seen there. -/
def ofView (place : List Text) : FileSystem.View → Sink
  | .file text => file place text
  | .absent | .directory | .null => null

@[simp] theorem add_nil (sink : Sink) : sink.add [] = sink := by
  cases sink <;> simp [add]

@[simp] theorem add_add (sink : Sink) (text more : Text) :
    (sink.add text).add more = sink.add (text ++ more) := by
  cases sink <;> simp [add]

@[simp] theorem place?_add (sink : Sink) (text : Text) : (sink.add text).place? = sink.place? := by
  cases sink <;> rfl

/-- Only a file is a sink with a place, which is its own. -/
theorem place?_ofView_eq_some_iff {place other : List Text} {view : FileSystem.View} :
    (ofView place view).place? = some other ↔ other = place ∧ ∃ text, view = .file text := by
  cases view <;> simp [ofView, place?, eq_comm]

end Sink

/-- The handle behind a channel of a command. -/
def StreamSet.handle (streams : StreamSet) : Channel → Handle
  | .out => streams.out
  | .err => streams.err

/-- The number of the stream that a channel is. -/
def Channel.number : Channel → Int
  | .out => 1
  | .err => 2

/-- The text that comes to the stream with a number, of texts that are written to channels one after
the other. -/
def sentTo (number : Int) (outputs : List (Channel × Text)) : Text :=
  outputs.flatMap fun (channel, text) => if channel.number = number then text else []

@[simp] theorem sentTo_nil (number : Int) : sentTo number [] = [] := rfl

/-- What comes to a stream first is followed by what comes to it later. -/
theorem sentTo_cons (number : Int) (output : Channel × Text) (outputs : List (Channel × Text)) :
    sentTo number (output :: outputs) = sentTo number [output] ++ sentTo number outputs := by
  simp [sentTo]

namespace World

/-- The world after texts have been written to channels one after the other. -/
def emit (streams : StreamSet) (outputs : List (Channel × Text)) (world : World) : World :=
  outputs.foldl (fun world output => world.write (streams.handle output.1) output.2) world

/-- A handle leads to a sink. -/
inductive LeadsTo (world : World) (handle : Handle) : Sink → Prop
  /-- There is a buffer behind it. -/
  | buffer {held : Text} (h : world.endpoints[handle]? = some (.stream (.buffer held))) :
    LeadsTo world handle (.buffer held)
  /-- There is a stream behind it at the end of the file at a place. -/
  | file {place : List Text} {text : Text} {inode : Inode}
    (h : world.endpoints[handle]? = some (.stream (.file inode text.length)))
    (hstat : world.files.stat place = some (.file, inode))
    (hlook : world.files.look place = .file text) : LeadsTo world handle (.file place text)
  /-- There is a stream on a null file behind it. -/
  | null (h : world.endpoints[handle]? = some (.stream .null)) : LeadsTo world handle .null

/-- A world has become another, where at most some handles and the texts at some places have
changed. -/
structure KeepsBeside (world : World) (handles : Handle → Prop) (places : List Text → Prop)
    (after : World) : Prop where
  /-- Every node is still where it was. -/
  stat : ∀ {names found}, world.files.stat names = some found →
    after.files.stat names = some found
  /-- Every other handle has what it had. -/
  endpoints : ∀ {handle endpoint}, ¬handles handle →
    world.endpoints[handle]? = some endpoint → after.endpoints[handle]? = some endpoint
  /-- Every other place looks as before. -/
  look : ∀ {names}, ¬places names → after.files.look names = world.files.look names

variable {world middle after : World} {handle : Handle} {sink : Sink}
  {handles : Handle → Prop} {places : List Text → Prop}

/-- Nothing changes if nothing is done. -/
theorem KeepsBeside.refl : world.KeepsBeside handles places world :=
  ⟨id, fun _ => id, fun _ => rfl⟩

/-- What is kept twice is kept. -/
theorem KeepsBeside.trans (h : world.KeepsBeside handles places middle)
    (hlater : middle.KeepsBeside handles places after) :
    world.KeepsBeside handles places after where
  stat hfound := hlater.stat (h.stat hfound)
  endpoints hhandle hendpoint := hlater.endpoints hhandle (h.endpoints hhandle hendpoint)
  look hnames := (hlater.look hnames).trans (h.look hnames)

/-- More may change. -/
theorem KeepsBeside.mono {more : Handle → Prop} {others : List Text → Prop}
    (h : world.KeepsBeside handles places after) (hhandles : ∀ handle, handles handle → more handle)
    (hplaces : ∀ names, places names → others names) : world.KeepsBeside more others after where
  stat := h.stat
  endpoints hhandle := h.endpoints fun hmem => hhandle (hhandles _ hmem)
  look hnames := h.look fun hmem => hnames (hplaces _ hmem)

/-- A handle leads to the same sink as long as neither changes. -/
theorem LeadsTo.keep (h : world.LeadsTo handle sink)
    (hkeeps : world.KeepsBeside handles places after) (hhandle : ¬handles handle)
    (hplace : ∀ place, sink.place? = some place → ¬places place) : after.LeadsTo handle sink := by
  cases h with
  | buffer h => exact .buffer (hkeeps.endpoints hhandle h)
  | file h hstat hlook =>
    refine .file (hkeeps.endpoints hhandle h) (hkeeps.stat hstat) ?_
    exact (hkeeps.look (hplace _ rfl)).trans hlook
  | null h => exact .null (hkeeps.endpoints hhandle h)

/-! ## Writing -/

/-- A stream of a handle that is replaced leaves all other handles. -/
theorem endpoints_putStream {other : Handle} {endpoint : Endpoint} (hother : other ≠ handle)
    (h : world.endpoints[other]? = some endpoint) (stream : Stream) (disk : Disk) :
    (world.putStream handle stream disk).endpoints[other]? = some endpoint :=
  (List.getElem?_set_ne (Ne.symm hother)).trans h

/-- A stream of a handle that is replaced is found there. -/
theorem endpoints_putStream_self {endpoint : Endpoint}
    (h : world.endpoints[handle]? = some endpoint) (stream : Stream) (disk : Disk) :
    (world.putStream handle stream disk).endpoints[handle]? = some (.stream stream) :=
  List.getElem?_set_self (List.getElem?_eq_some_iff.1 h).1

/-- A text that is written through a handle comes to its sink, and nothing else changes. -/
theorem LeadsTo.write (h : world.LeadsTo handle sink) (hnumbered : world.files.Numbered)
    (text : Text) :
    (world.write handle text).LeadsTo handle (sink.add text) ∧
      (world.write handle text).files.Numbered ∧
      world.KeepsBeside (· = handle) (sink.place? = some ·) (world.write handle text) := by
  cases h with
  | @buffer held h =>
    have hwrite : world.write handle text =
        world.putStream handle (.buffer (held ++ text)) world.files.disk := by
      rw [World.write, h]
      rfl
    rw [hwrite]
    refine ⟨.buffer (endpoints_putStream_self h _ _), hnumbered, id, fun hother hendpoint => ?_,
      fun _ => rfl⟩
    exact endpoints_putStream hother hendpoint _ _
  | null h =>
    have hwrite : world.write handle text = world.putStream handle .null world.files.disk := by
      rw [World.write, h]
      rfl
    rw [hwrite]
    refine ⟨.null (endpoints_putStream_self h _ _), hnumbered, id, fun hother hendpoint => ?_,
      fun _ => rfl⟩
    exact endpoints_putStream hother hendpoint _ _
  | @file place contents inode h hstat hlook =>
    have hread : world.files.disk.read inode = contents := by
      rw [FileSystem.look_eq, hstat] at hlook
      injection hlook
    have hwrite : world.write handle text =
        { world.putStream handle (.file inode (contents ++ text).length) world.files.disk with
          files := world.files.write inode (contents ++ text) } := by
      rw [World.write, h]
      dsimp only [Stream.write]
      rw [hread, overwrite_length, List.length_append, Nat.min_self]
      rfl
    have hlooks := FileSystem.look_write hnumbered hstat (contents ++ text)
    rw [hwrite]
    refine ⟨.file (endpoints_putStream_self h _ world.files.disk) hstat ?_,
      hnumbered.write inode _, id, fun hother hendpoint => ?_, fun {names} hnames => ?_⟩
    · exact (hlooks place).trans (if_pos rfl)
    · exact endpoints_putStream hother hendpoint _ world.files.disk
    · exact (hlooks names).trans (if_neg fun heq => hnames (congrArg some heq.symm))

/-- The two channels of a command lead to different sinks. -/
structure Feeds (world : World) (streams : StreamSet) (sinks : Channel → Sink) : Prop where
  /-- Numbers tell files apart. -/
  numbered : world.files.Numbered
  /-- Each channel leads to its sink. -/
  leads : ∀ channel, world.LeadsTo (streams.handle channel) (sinks channel)
  /-- The channels have different handles. -/
  handle_inj : ∀ {channel other}, streams.handle channel = streams.handle other → channel = other
  /-- No file is the sink of both. -/
  place_inj : ∀ {channel other place}, (sinks channel).place? = some place →
    (sinks other).place? = some place → channel = other

variable {streams : StreamSet} {sinks : Channel → Sink}

/-- A text that is written to a channel comes to its sink, and nothing but the sinks changes. -/
theorem Feeds.write (h : world.Feeds streams sinks) (channel : Channel) (text : Text) :
    (world.write (streams.handle channel) text).Feeds streams
        (fun other => (sinks other).add (sentTo other.number [(channel, text)])) ∧
      world.KeepsBeside (∃ channel, streams.handle channel = ·)
        (∃ channel, (sinks channel).place? = some ·)
        (world.write (streams.handle channel) text) := by
  obtain ⟨hleads, hnumbered, hkeeps⟩ := (h.leads channel).write h.numbered text
  refine ⟨⟨hnumbered, fun other => ?_, h.handle_inj, fun hplace hother => ?_⟩,
    hkeeps.mono (fun _ heq => ⟨channel, heq.symm⟩) fun _ heq => ⟨channel, heq⟩⟩
  · by_cases hsame : other = channel
    · subst hsame
      simpa [sentTo] using hleads
    · have hsent : sentTo other.number [(channel, text)] = [] := by
        cases other <;> cases channel <;> first | exact absurd rfl hsame | rfl
      rw [hsent, Sink.add_nil]
      refine (h.leads other).keep hkeeps (fun heq => hsame (h.handle_inj heq)) ?_
      exact fun place hplace heq => hsame (h.place_inj hplace heq)
  · rw [Sink.place?_add] at hplace hother
    exact h.place_inj hplace hother

/-- Texts that are written to channels come to their sinks in their order, and nothing but the sinks
changes. -/
theorem Feeds.emit (h : world.Feeds streams sinks) (outputs : List (Channel × Text)) :
    (world.emit streams outputs).Feeds streams
        (fun channel => (sinks channel).add (sentTo channel.number outputs)) ∧
      world.KeepsBeside (∃ channel, streams.handle channel = ·)
        (∃ channel, (sinks channel).place? = some ·) (world.emit streams outputs) := by
  induction outputs generalizing world sinks with
  | nil =>
    simp only [sentTo_nil, Sink.add_nil]
    exact ⟨h, .refl⟩
  | cons output outputs ih =>
    obtain ⟨channel, text⟩ := output
    obtain ⟨hfeeds, hkeeps⟩ := h.write channel text
    obtain ⟨hlast, hlater⟩ := ih hfeeds
    simp only [Sink.add_add, ← sentTo_cons] at hlast
    simp only [Sink.place?_add] at hlater
    exact ⟨hlast, hkeeps.trans hlater⟩

/-! ## Opening -/

section Opened

variable {target : Path} {mode : OpenMode} {stream : Stream} {files : FileSystem}

/-- A file that is opened is made or emptied where it has to be, and nothing else changes. -/
theorem keeps_opened (hnumbered : world.files.Numbered)
    (hopen : FileSystem.openAt target mode world.files = .ok stream files) :
    (world.opened target mode).files.look =
        FileMap.touch world.files.look target.parts mode ∧
      world.KeepsBeside (fun _ => False) (· = target.parts) (world.opened target mode) := by
  have hcall := FileSystem.openAt_becomes target mode world.files
  rw [FileOp.AllOrNothing, hopen] at hcall
  obtain ⟨-, hlook⟩ := hcall hnumbered
  obtain ⟨-, hcarries⟩ := FileSystem.leaves_openAt target mode world.files stream files hopen
  rw [opened_ok hopen]
  refine ⟨hlook, fun hfound => hcarries.stat_eq hfound rfl, fun _ hendpoint => ?_,
    fun {names} hnames => ?_⟩
  · have hlt := (List.getElem?_eq_some_iff.1 hendpoint).1
    exact (List.getElem?_append_left hlt).trans hendpoint
  · exact (congrFun hlook names).trans (if_neg hnames)

/-- The new handle of a file that is opened to be written leads to the end of the file. -/
theorem leadsTo_opened (hnumbered : world.files.Numbered) (hmode : mode ≠ .read)
    (hopen : FileSystem.openAt target mode world.files = .ok stream files) :
    (world.opened target mode).LeadsTo world.endpoints.length
      (Sink.ofView target.parts
        (FileMap.touch world.files.look target.parts mode target.parts)) := by
  obtain ⟨hlook, -⟩ := keeps_opened hnumbered hopen
  obtain ⟨hopened, -⟩ := FileSystem.leaves_openAt target mode world.files stream files hopen
  rw [← hlook]
  have hfiles : (world.opened target mode).files = files := by rw [opened_ok hopen]
  have hhandle : (world.opened target mode).endpoints[world.endpoints.length]? =
      some (.stream stream) := by
    rw [opened_ok hopen]
    exact List.getElem?_concat_length
  rw [hfiles] at hlook ⊢
  cases hopened with
  | @file inode hstat =>
    have hview : files.look target.parts = .file (files.disk.read inode) := by
      rw [FileSystem.look_eq, hstat]
      rfl
    have hend : FileSystem.startOf mode (files.disk.read inode) =
        (files.disk.read inode).length := by
      cases mode with
      | read => exact absurd rfl hmode
      | append => rfl
      | write =>
        rw [hlook] at hview
        rw [FileMap.eq_nil_of_touch_write hview]
        rfl
    rw [hend] at hhandle
    rw [hview]
    exact .file hhandle (hfiles ▸ hstat) (hfiles ▸ hview)
  | null hstat =>
    have hview : files.look target.parts = .null := by
      rw [FileSystem.look_eq, hstat]
      rfl
    rw [hview]
    exact .null hhandle

end Opened

end World

end MemShell
