import MemShell.Proofs.Shell.Redirecting
import MemShell.Proofs.Stream.Overwriting

/-!
# Appending

A stream that is opened to append starts at the end that its file has then, and stays where it is
when the file grows through other streams. So appending never loses what was in the file before, but
a text that is written through one stream can replace what was written through another one. Main
statement: the texts follow each other in the order of the calls exactly if the streams take turns
in such a way that each writes only while no other has written since it was opened.
-/

namespace MemShell

/-- A call that concerns a file to which streams append. -/
inductive AppendCall
  /-- Opens one more stream. -/
  | attach
  /-- Writes a text through one of the streams, which are counted from zero. -/
  | write (index : Nat) (text : Text)
  /-- Writes a text and a line break through one of the streams. -/
  | writeLine (index : Nat) (text : Text)

namespace AppendCall

/-- The stream that a call writes through, and the text that it writes. -/
def written? : AppendCall → Option (Nat × Text)
  | attach => none
  | write index text => some (index, text)
  | writeLine index text => some (index, text ++ ['\n'])

/-- The text that a call writes. -/
def text (call : AppendCall) : Text := (call.written?.map Prod.snd).getD []

/-- The step of a world that a call is, if the streams have the handles from a first one on. -/
def step (target : Path) (first : Nat) : AppendCall → World.Step
  | attach => .call (.openAt target .append)
  | write index text => .write (first + index) text
  | writeLine index text => .writeLine (first + index) text

/-- Every text that is not empty is written through a fresh stream, which is one since whose opening
no other stream has written such a text. The number of streams and the fresh ones among them are
those before the calls. -/
def InTurn (opened : Nat) (fresh : List Nat) : List AppendCall → Prop
  | [] => True
  | call :: calls =>
    match call.written? with
    | none => InTurn (opened + 1) (opened :: fresh) calls
    | some (index, text) =>
      if text = [] then InTurn opened fresh calls
      else index ∈ fresh ∧ InTurn opened [index] calls

end AppendCall

/-! ## Positions in a text -/

/-- The text of a file and the positions of the streams that append to it. -/
structure Tape where
  /-- The text. -/
  contents : Text
  /-- The positions in the order in which the streams were opened. -/
  heads : List Nat

namespace Tape

/-- The tape after one more stream has been opened. -/
def attach (tape : Tape) : Tape := { tape with heads := tape.heads ++ [tape.contents.length] }

/-- The tape after a text has been written through a stream; there may be no such stream. -/
def write (tape : Tape) (index : Nat) (text : Text) : Tape :=
  match tape.heads[index]? with
  | none => tape
  | some pointer =>
    ⟨overwrite tape.contents pointer text, tape.heads.set index (pointer + text.length)⟩

/-- The tape after a call. -/
def step (tape : Tape) (call : AppendCall) : Tape :=
  match call.written? with
  | none => tape.attach
  | some (index, text) => tape.write index text

/-- The tape after several calls. -/
def run (tape : Tape) (calls : List AppendCall) : Tape := calls.foldl step tape

variable {tape : Tape} {start : Text} {fresh : List Nat}

/-- A text is still there at the start, and no stream stands in it or beyond the end. -/
structure Keeps (tape : Tape) (start : Text) : Prop where
  /-- The text is at the start. -/
  isPrefix : start <+: tape.contents
  /-- Every stream stands between the end of the text and the end of the file. -/
  bounds : ∀ head ∈ tape.heads, start.length ≤ head ∧ head ≤ tape.contents.length

/-- One more stream stands at the end. -/
theorem Keeps.attach (h : tape.Keeps start) : tape.attach.Keeps start where
  isPrefix := h.isPrefix
  bounds head hhead := by
    rcases List.mem_append.1 hhead with hhead | hhead
    · exact h.bounds head hhead
    · rw [List.mem_singleton.1 hhead]
      exact ⟨h.isPrefix.length_le, Nat.le_refl _⟩

/-- Writing keeps the start, and the text grows by what is written at most; it does so only if it is
written at the end. -/
theorem Keeps.write (h : tape.Keeps start) (index : Nat) (text : Text) :
    (tape.write index text).Keeps start ∧
      (tape.write index text).contents.length ≤ tape.contents.length + text.length ∧
      (text ≠ [] → tape.heads[index]? ≠ some tape.contents.length →
        (tape.write index text).contents.length < tape.contents.length + text.length) := by
  rw [Tape.write]
  cases hhead : tape.heads[index]? with
  | none =>
    refine ⟨h, Nat.le_add_right _ _, fun htext _ => ?_⟩
    exact Nat.lt_add_of_pos_right (List.length_pos_iff.2 htext)
  | some pointer =>
    obtain ⟨hstart, hend⟩ := h.bounds pointer (List.mem_of_getElem? hhead)
    have hlength := length_overwrite hend text
    refine ⟨⟨prefix_overwrite h.isPrefix hstart text, fun head hmem => ?_⟩, ?_, fun htext hne => ?_⟩
    · rcases List.mem_or_eq_of_mem_set hmem with hmem | rfl
      · have hbounds := h.bounds head hmem
        dsimp only
        omega
      · dsimp only
        omega
    · dsimp only
      omega
    · have hpos := List.length_pos_iff.2 htext
      have hpointer : pointer ≠ tape.contents.length := fun heq => hne (congrArg some heq)
      dsimp only
      omega

/-- A call keeps the start. -/
theorem Keeps.step (h : tape.Keeps start) (call : AppendCall) : (tape.step call).Keeps start := by
  rw [Tape.step]
  cases call.written? with
  | none => exact h.attach
  | some pair => exact (h.write pair.1 pair.2).1

/-- A call makes the text grow by what it writes at most. -/
theorem Keeps.length_step (h : tape.Keeps start) (call : AppendCall) :
    (tape.step call).contents.length ≤ tape.contents.length + call.text.length := by
  rw [Tape.step, AppendCall.text]
  cases call.written? with
  | none => exact Nat.le_refl _
  | some pair => exact (h.write pair.1 pair.2).2.1

/-- A run keeps the start, and the text grows by what is written at most. -/
theorem Keeps.run (h : tape.Keeps start) (calls : List AppendCall) :
    start <+: (tape.run calls).contents ∧
      (tape.run calls).contents.length ≤
        tape.contents.length + (calls.flatMap AppendCall.text).length := by
  induction calls generalizing tape with
  | nil => exact ⟨h.isPrefix, Nat.le_refl _⟩
  | cons call calls ih =>
    obtain ⟨hkept, hlength⟩ := ih (h.step call)
    have hstep := h.length_step call
    refine ⟨hkept, Nat.le_trans hlength ?_⟩
    rw [List.flatMap_cons, List.length_append]
    omega

/-- The fresh streams are those at the end. -/
def Tracks (tape : Tape) (fresh : List Nat) : Prop :=
  ∀ index, index ∈ fresh ↔ tape.heads[index]? = some tape.contents.length

/-- One more stream is fresh. -/
theorem Tracks.attach (h : tape.Tracks fresh) :
    tape.attach.Tracks (tape.heads.length :: fresh) := by
  intro index
  rw [List.mem_cons, h index, Tape.attach]
  rcases Nat.lt_trichotomy index tape.heads.length with hlt | rfl | hgt
  · rw [List.getElem?_append_left hlt, or_iff_right (Nat.ne_of_lt hlt)]
  · rw [List.getElem?_concat_length]
    exact iff_of_true (.inl rfl) rfl
  · have hnone : tape.heads[index]? = none := List.getElem?_eq_none (Nat.le_of_lt hgt)
    have hnone' : (tape.heads ++ [tape.contents.length])[index]? = none :=
      List.getElem?_eq_none (by rwa [List.length_append, List.length_singleton])
    rw [hnone, hnone', or_iff_right (Nat.ne_of_gt hgt)]

/-- After a fresh stream has written it is the only fresh one. -/
theorem Tracks.write (h : tape.Tracks fresh) (hkeeps : tape.Keeps start) {index : Nat}
    (hindex : index ∈ fresh) {text : Text} (htext : text ≠ []) :
    (tape.write index text).Tracks [index] ∧
      (tape.write index text).contents = tape.contents ++ text := by
  have hhead := (h index).1 hindex
  have hwrite : tape.write index text = ⟨tape.contents ++ text,
      tape.heads.set index (tape.contents.length + text.length)⟩ := by
    rw [Tape.write, hhead, ← overwrite_length]
  rw [hwrite]
  refine ⟨fun other => ?_, rfl⟩
  rw [List.mem_singleton, List.getElem?_set, List.length_append]
  by_cases hother : other = index
  · subst hother
    have hlt : other < tape.heads.length := (List.getElem?_eq_some_iff.1 hhead).1
    rw [if_pos rfl, if_pos hlt]
    exact iff_of_true rfl rfl
  · rw [if_neg (Ne.symm hother)]
    refine iff_of_false hother fun hsome => ?_
    have hbound := (hkeeps.bounds _ (List.mem_of_getElem? hsome)).2
    have hpos := List.length_pos_iff.2 htext
    omega

/-- Writing nothing changes nothing. -/
theorem write_nil (tape : Tape) (index : Nat) : tape.write index [] = tape := by
  rw [Tape.write]
  cases hhead : tape.heads[index]? with
  | none => rfl
  | some pointer =>
    obtain ⟨hlt, rfl⟩ := List.getElem?_eq_some_iff.1 hhead
    dsimp only
    rw [overwrite_nil, List.length_nil, Nat.add_zero, List.set_getElem_self]

/-- A write does not change the number of streams. -/
theorem length_heads_write (tape : Tape) (index : Nat) (text : Text) :
    (tape.write index text).heads.length = tape.heads.length := by
  rw [Tape.write]
  cases tape.heads[index]? with
  | none => rfl
  | some pointer => exact List.length_set

/-- The texts follow each other in the order of the calls exactly if the streams take turns. -/
theorem Keeps.contents_run_iff (hkeeps : tape.Keeps start) (h : tape.Tracks fresh)
    (calls : List AppendCall) :
    (tape.run calls).contents = tape.contents ++ calls.flatMap AppendCall.text ↔
      AppendCall.InTurn tape.heads.length fresh calls := by
  induction calls generalizing tape fresh with
  | nil => exact iff_of_true (List.append_nil _).symm trivial
  | cons call calls ih =>
    have hrun : tape.run (call :: calls) = (tape.step call).run calls := rfl
    rw [hrun, List.flatMap_cons, AppendCall.InTurn, Tape.step, AppendCall.text]
    cases call.written? with
    | none =>
      have hlength : tape.attach.heads.length = tape.heads.length + 1 := List.length_append
      rw [← hlength]
      exact ih hkeeps.attach h.attach
    | some pair =>
      obtain ⟨index, text⟩ := pair
      dsimp only [Option.map_some, Option.getD_some]
      by_cases htext : text = []
      · rw [if_pos htext, htext, write_nil]
        exact ih hkeeps h
      · rw [if_neg htext]
        obtain ⟨hwritten, hgrows, hshort⟩ := hkeeps.write index text
        by_cases hindex : index ∈ fresh
        · obtain ⟨htracks, hcontents⟩ := h.write hkeeps hindex htext
          rw [and_iff_right hindex, ← List.append_assoc, ← hcontents,
            ← length_heads_write tape index text]
          exact ih hwritten htracks
        · -- what is lost here is missing at the end, because no later call makes up for it
          refine iff_of_false (fun heq => ?_) fun hturn => hindex hturn.1
          have hless := hshort htext fun hhead => hindex ((h index).2 hhead)
          have hbound := (hwritten.run calls).2
          rw [heq, List.length_append, List.length_append] at hbound
          omega

end Tape

/-! ## Streams of a world -/

namespace World

/-- From a first handle on there are the streams of a tape, and the file at a path has its text. -/
structure Appends (world : World) (target : Path) (inode : Inode) (first : Nat) (tape : Tape) :
    Prop where
  /-- The file is at the path. -/
  get_eq : world.files.get target = some (.file inode)
  /-- Its number has been given out. -/
  lt_next : inode < world.files.disk.next
  /-- It has the text of the tape. -/
  read_eq : world.files.disk.read inode = tape.contents
  /-- There are no other handles behind the first one. -/
  length_eq : world.endpoints.length = first + tape.heads.length
  /-- Every stream has its position. -/
  stream_eq : ∀ {index pointer}, tape.heads[index]? = some pointer →
    world.endpoints[first + index]? = some (.stream (.file inode pointer))

variable {world : World} {target : Path} {inode : Inode} {first : Nat} {tape : Tape}
  {start : Text}

/-- One more stream is opened. -/
theorem Appends.attach (h : world.Appends target inode first tape) :
    (world.opened target .append).Appends target inode first tape.attach := by
  rw [(opened_append h.get_eq).2, h.read_eq]
  refine ⟨h.get_eq, h.lt_next, h.read_eq, ?_, fun {index pointer} hhead => ?_⟩
  · rw [List.length_append, h.length_eq, Tape.attach, List.length_append, Nat.add_assoc]
    rfl
  · by_cases hindex : index < tape.heads.length
    · rw [Tape.attach, List.getElem?_append_left hindex] at hhead
      have hlt : first + index < world.endpoints.length := by rw [h.length_eq]; omega
      exact (List.getElem?_append_left hlt).trans (h.stream_eq hhead)
    · have hlast : index = tape.heads.length := by
        have hlt := (List.getElem?_eq_some_iff.1 hhead).1
        rw [Tape.attach, List.length_append, List.length_singleton] at hlt
        omega
      subst hlast
      rw [Tape.attach, List.getElem?_concat_length] at hhead
      cases hhead
      rw [← h.length_eq]
      exact List.getElem?_concat_length

/-- A text is written through a stream. -/
theorem Appends.write (h : world.Appends target inode first tape) (hkeeps : tape.Keeps start)
    (index : Nat) (text : Text) :
    (world.write (first + index) text).Appends target inode first (tape.write index text) := by
  cases hhead : tape.heads[index]? with
  | none =>
    have hnone : world.endpoints[first + index]? = none := by
      rw [List.getElem?_eq_none_iff] at hhead ⊢
      rw [h.length_eq]
      omega
    rw [Tape.write, hhead, World.write, hnone]
    exact h
  | some pointer =>
    have hend : min (pointer + text.length) (overwrite tape.contents pointer text).length =
        pointer + text.length := by
      rw [end_overwrite, Nat.min_eq_left (hkeeps.bounds pointer (List.mem_of_getElem? hhead)).2]
    have hwrite : world.write (first + index) text =
        world.putStream (first + index) (.file inode (pointer + text.length))
          (world.files.disk.write inode (overwrite tape.contents pointer text)) := by
      rw [World.write, h.stream_eq hhead]
      dsimp only
      rw [Stream.write, h.read_eq, hend]
    have htape : tape.write index text = ⟨overwrite tape.contents pointer text,
        tape.heads.set index (pointer + text.length)⟩ := by
      rw [Tape.write, hhead]
    rw [hwrite, htape]
    refine ⟨h.get_eq, ?_, ?_, ?_, fun {other position} hother => ?_⟩
    · exact (Disk.next_write _ _ _).symm ▸ h.lt_next
    · exact (Disk.read_write h.lt_next _ _).trans (if_pos rfl)
    · rw [World.putStream, List.length_set, List.length_set, h.length_eq]
    · by_cases hsame : other = index
      · subst hsame
        rw [List.getElem?_set_self (List.getElem?_eq_some_iff.1 hhead).1] at hother
        cases hother
        exact List.getElem?_set_self (List.getElem?_eq_some_iff.1 (h.stream_eq hhead)).1
      · rw [List.getElem?_set_ne (Ne.symm hsame)] at hother
        have hne : first + index ≠ first + other := by omega
        exact (List.getElem?_set_ne hne).trans (h.stream_eq hother)

/-- A call is a step of the streams. -/
theorem Appends.step (h : world.Appends target inode first tape) (hkeeps : tape.Keeps start)
    (call : AppendCall) :
    (world.step (call.step target first)).Appends target inode first (tape.step call) := by
  cases call with
  | attach => exact h.attach
  | write index text => exact h.write hkeeps index text
  | writeLine index text => exact h.write hkeeps index (text ++ ['\n'])

/-- A run is a run of the streams. -/
theorem Appends.run (h : world.Appends target inode first tape) (hkeeps : tape.Keeps start)
    (calls : List AppendCall) :
    (world.run (calls.map (AppendCall.step target first))).Appends target inode first
      (tape.run calls) := by
  induction calls generalizing world tape with
  | nil => exact h
  | cons call calls ih => exact ih (h.step hkeeps call) (hkeeps.step call)

/-- The file at the path loses nothing of what it held before, however streams append to it, and it
holds that and all written texts in the order of the calls exactly if the streams take turns. When
streams of a command are redirected to append to the file, they are opened one after the other
before the command writes. -/
theorem appended_iff_inTurn {world : World} (hnumbered : world.files.Numbered) {target : Path}
    {inode : Inode} (hget : world.files.get target = some (.file inode))
    (calls : List AppendCall) :
    let first := world.endpoints.length
    let contents := world.files.disk.read inode
    (∃ text, (world.run (calls.map (AppendCall.step target first))).files.look target.parts =
        .file text ∧ contents <+: text ∧
      (text = contents ++ calls.flatMap AppendCall.text ↔ AppendCall.InTurn 0 [] calls)) ∧
    ∀ cwd redirects streams progress, progress.world = world →
      (∀ entry ∈ redirects, entry.2.mode = .append ∧ Path.interpret cwd [entry.2.target] = target) →
      ∃ after, Action.redirect cwd redirects streams progress =
          .ok (streams.redirectedFrom first redirects) after ∧
        after.world = world.run ((List.replicate redirects.length AppendCall.attach).map
          (AppendCall.step target first)) := by
  intro first contents
  have hstat : world.files.stat target.parts = some (.file, inode) :=
    Option.map_eq_some_iff.2 ⟨_, FileSystem.find_of_get hget, rfl⟩
  have hstart : world.Appends target inode first ⟨contents, []⟩ :=
    ⟨hget, hnumbered.lt_next hstat, rfl, rfl, nofun⟩
  have hkeeps : (Tape.mk contents []).Keeps contents :=
    ⟨List.prefix_refl contents, fun _ hnil => absurd hnil List.not_mem_nil⟩
  have htracks : (Tape.mk contents []).Tracks [] :=
    fun index => iff_of_false List.not_mem_nil nofun
  refine ⟨⟨((Tape.mk contents []).run calls).contents, ?_, (hkeeps.run calls).1,
    hkeeps.contents_run_iff htracks calls⟩, ?_⟩
  · have hend := hstart.run hkeeps calls
    rw [FileSystem.look, FileSystem.find_of_get hend.get_eq, ← hend.read_eq]
  · rintro cwd redirects streams progress rfl hredirects
    rw [List.map_replicate]
    exact Action.redirect_append_ok hredirects hget streams

/-- A world with a file that is written to by appending. -/
def logbook : World := { blank [] with files := .ofEntries [("log", .file "start ")] }

/-- The redirects of both streams of a command to the file. -/
def intoLogbook : List (Int × Redirect) := [(1, ⟨.append, "log"⟩), (2, ⟨.append, "/log"⟩)]

theorem appended_iff_inTurn_logbook :
    logbook.files.get (Path.ofText "/log") = some (.file 1) ∧
      (logbook.run ([.attach, .write 0 "one ", .attach, .writeLine 1 "two"].map
        (AppendCall.step (Path.ofText "/log") 0))).files.look ["log"] =
          .file "start one two\n" ∧
      ∃ after,
        Action.redirect "/" intoLogbook ⟨7, 8, 9⟩ (.start logbook) = .ok ⟨7, 0, 1⟩ after := by
  have hnumbered : logbook.files.Numbered :=
    FileSystem.numbered_ofEntries [("log", .file "start ")]
  have hget : logbook.files.get (Path.ofText "/log") = some (.file 1) := by rfl
  obtain ⟨⟨text, hlook, -, htext⟩, hredirect⟩ :=
    appended_iff_inTurn hnumbered hget [.attach, .write 0 "one ", .attach, .writeLine 1 "two"]
  have hturn : AppendCall.InTurn 0 [] [.attach, .write 0 "one ", .attach, .writeLine 1 "two"] := by
    simp [AppendCall.InTurn, AppendCall.written?]
  have hinto : ∀ entry ∈ intoLogbook,
      entry.2.mode = .append ∧ Path.interpret "/" [entry.2.target] = Path.ofText "/log" := by
    decide +kernel
  obtain ⟨after, hafter, -⟩ := hredirect "/" intoLogbook ⟨7, 8, 9⟩ (.start logbook) rfl hinto
  exact ⟨hget, hlook.trans (congrArg FileSystem.View.file (htext.2 hturn)), after, hafter⟩

/-- When a command appends its output and its errors to the same file, both streams are opened before
it writes, and the second text replaces the first one. -/
theorem appending_overwrites :
    let calls := [AppendCall.attach, .attach, .writeLine 0 "out", .writeLine 1 "err"]
    let after := (logbook.run (calls.map (AppendCall.step (Path.ofText "/log") 0))).files
    after.look ["log"] = .file "start err\n" ∧
      after.look ["log"] ≠ .file ("start " ++ calls.flatMap AppendCall.text) := by
  decide +kernel

end World

end MemShell
