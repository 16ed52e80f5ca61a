import MemShell.Stream.Basic

/-!
# Reading what was written

What is read from a stream is taken from the front of what has not been read yet, however many
characters are asked for, and looking at it takes nothing. Main statement: a buffer hands out what
was written to it without loss, a stream on a file hands out what lies between its positions, and
reading line by line comes to an end and cuts the text behind its line breaks.
-/

namespace MemShell

/-- Asking for the first items of a list gives some from its front. -/
theorem prefix_takeFirst {α : Type} (items : List α) (count : Option Int) :
    takeFirst items count <+: items := by
  match count with
  | none => exact List.prefix_refl items
  | some (.ofNat n) => exact List.take_prefix n items
  | some (.negSucc n) => exact List.take_prefix _ items

/-! ## Lines -/

namespace Text

/-- The lines of a text, each with the line break at its end; the last one may have none. -/
def lines : Text → List Text
  | [] => []
  | c :: rest =>
    if c = '\n' then ['\n'] :: lines rest
    else
      match lines rest with
      | [] => [[c]]
      | line :: more => (c :: line) :: more

/-- A text that ends in a line break and has no other. -/
def IsLine (text : Text) : Prop := ∃ front, '\n' ∉ front ∧ text = front ++ ['\n']

/-- A line stays one behind a character other than a line break. -/
theorem IsLine.cons {text : Text} (h : text.IsLine) {c : Char} (hc : c ≠ '\n') :
    IsLine (c :: text) := by
  obtain ⟨front, hfront, rfl⟩ := h
  exact ⟨c :: front, List.not_mem_cons_of_ne_of_not_mem (Ne.symm hc) hfront, rfl⟩

/-- The lines of a text make up the text. -/
theorem flatten_lines (text : Text) : (lines text).flatten = text := by
  fun_induction lines text with
  | case1 => rfl
  | case2 rest ih => rw [List.flatten_cons, ih, List.singleton_append]
  | case3 c rest hc hrest ih =>
    rw [hrest, List.flatten_nil] at ih
    rw [← ih]
    rfl
  | case4 c rest hc line more hrest ih =>
    rw [hrest, List.flatten_cons] at ih
    rw [List.flatten_cons, List.cons_append, ih]

/-- No line is empty. -/
theorem nil_not_mem_lines (text : Text) : [] ∉ lines text := by
  fun_induction lines text with
  | case1 => exact List.not_mem_nil
  | case2 rest ih => simpa using ih
  | case3 c rest hc hrest ih => simp
  | case4 c rest hc line more hrest ih =>
    rw [hrest, List.mem_cons, not_or] at ih
    simpa using ih.2

/-- Every line ends in a line break and has no other, but for the last one, which may have none. -/
theorem isLine_of_mem_lines (text : Text) :
    (∀ line ∈ (lines text).dropLast, IsLine line) ∧
      ∀ line ∈ (lines text).getLast?, IsLine line ∨ '\n' ∉ line := by
  have hbreak : IsLine ['\n'] := ⟨[], List.not_mem_nil, rfl⟩
  fun_induction lines text with
  | case1 => exact ⟨nofun, nofun⟩
  | case2 rest ih =>
    obtain ⟨hfront, hlast⟩ := ih
    cases hrest : lines rest with
    | nil => exact ⟨nofun, fun line hline => .inl (Option.mem_some.1 hline ▸ hbreak)⟩
    | cons line more =>
      rw [hrest] at hfront hlast
      exact ⟨List.forall_mem_cons.2 ⟨hbreak, hfront⟩, hlast⟩
  | case3 c rest hc hrest ih =>
    refine ⟨nofun, fun line hline => .inr ?_⟩
    rw [← Option.mem_some.1 hline]
    exact List.not_mem_cons_of_ne_of_not_mem (Ne.symm hc) List.not_mem_nil
  | case4 c rest hc line more hrest ih =>
    rw [hrest] at ih
    obtain ⟨hfront, hlast⟩ := ih
    cases more with
    | nil =>
      refine ⟨nofun, fun longer hlonger => ?_⟩
      rw [← Option.mem_some.1 hlonger]
      refine (hlast line rfl).imp (fun h => h.cons hc) fun h => ?_
      exact List.not_mem_cons_of_ne_of_not_mem (Ne.symm hc) h
    | cons next more =>
      obtain ⟨hline, hmore⟩ := List.forall_mem_cons.1 hfront
      exact ⟨List.forall_mem_cons.2 ⟨hline.cons hc, hmore⟩, hlast⟩

/-- The number of characters up to a line break grows by one for a character in front of it. -/
theorem takeFirst_lineLength_cons {c : Char} (hc : c ≠ '\n') (rest : Text) :
    takeFirst (c :: rest) (lineLength (c :: rest)) = c :: takeFirst rest (lineLength rest) := by
  rw [lineLength, lineLength, List.findIdx?_cons, if_neg (by simpa using hc)]
  cases rest.findIdx? (· == '\n') <;> rfl

/-- What stands up to the first line break of a text is its first line. -/
theorem takeFirst_lineLength (text : Text) :
    takeFirst text (lineLength text) = (lines text).headD [] := by
  fun_induction lines text with
  | case1 => rfl
  | case2 rest ih => rfl
  | case3 c rest hc hrest ih | case4 c rest hc line more hrest ih =>
    rw [takeFirst_lineLength_cons hc, ih, hrest]
    rfl

/-- Behind the first line of a text stand the others. -/
theorem lines_drop {text line : Text} {more : List Text} (h : lines text = line :: more) :
    lines (text.drop line.length) = more := by
  fun_induction lines text generalizing line more with
  | case1 => cases h
  | case2 rest ih =>
    obtain ⟨rfl, rfl⟩ := List.cons.inj h
    rfl
  | case3 c rest hc hrest ih =>
    obtain ⟨rfl, rfl⟩ := List.cons.inj h
    exact hrest
  | case4 c rest hc first others hrest ih =>
    obtain ⟨rfl, rfl⟩ := List.cons.inj h
    exact ih hrest

end Text

/-! ## Calls -/

namespace Stream

variable {disk : Disk} {stream : Stream}

/-- A stream from which nothing is read stays as it is. -/
@[simp] theorem advance_zero (stream : Stream) : stream.advance 0 = stream := by
  cases stream <;> rfl

/-- A stream goes on from where it has come to. -/
theorem advance_advance (stream : Stream) (count more : Nat) :
    (stream.advance count).advance more = stream.advance (count + more) := by
  cases stream with
  | buffer unread => rw [advance, advance, advance, List.drop_drop]
  | file inode pointer => rw [advance, advance, advance, Nat.add_assoc]
  | null => rfl

/-- What has been read is no longer unread. -/
theorem unread_advance (disk : Disk) (stream : Stream) (count : Nat) :
    (stream.advance count).unread disk = (stream.unread disk).drop count := by
  cases stream with
  | buffer unread => rfl
  | file inode pointer => exact (List.drop_drop).symm
  | null => exact List.drop_nil.symm

end Stream

/-- A call on a stream. -/
inductive StreamCall
  /-- Writes a text. -/
  | write (text : Text)
  /-- Writes a text and a line break. -/
  | writeLine (text : Text)
  /-- Reads as many characters as there are, or a number of them. -/
  | read (count : Option Int)
  /-- Reads a line. -/
  | readLine
  /-- Looks at what reading would give. -/
  | peek (count : Option Int)
  /-- Looks at what reading a line would give. -/
  | peekLine

namespace StreamCall

/-- What a call gives, and the stream and the disk after it. A write gives nothing. -/
def run (disk : Disk) (stream : Stream) : StreamCall → Text × Stream × Disk
  | write text => ([], stream.write disk text)
  | writeLine text => ([], stream.writeLine disk text)
  | read count => ((stream.read disk count).1, (stream.read disk count).2, disk)
  | readLine => ((stream.readLine disk).1, (stream.readLine disk).2, disk)
  | peek count => (stream.peek disk count, stream, disk)
  | peekLine => (stream.peekLine disk, stream, disk)

/-- What several calls give one after the other, and the stream and the disk after them. -/
def runAll (disk : Disk) (stream : Stream) : List StreamCall → List Text × Stream × Disk
  | [] => ([], stream, disk)
  | call :: calls =>
    let (given, stream, disk) := call.run disk stream
    let (others, stream, disk) := runAll disk stream calls
    (given :: others, stream, disk)

/-- The text that a call writes. -/
def written : StreamCall → Text
  | write text => text
  | writeLine text => text ++ ['\n']
  | read _ | readLine | peek _ | peekLine => []

/-- A call writes to the stream. -/
def Writes : StreamCall → Prop
  | write _ | writeLine _ => True
  | read _ | readLine | peek _ | peekLine => False

instance : DecidablePred Writes
  | write _ | writeLine _ => isTrue trivial
  | read _ | readLine | peek _ | peekLine => isFalse id

/-- What a call takes off the stream of what it gives: all of it if the call reads, and nothing if
it only looks. -/
def taken (call : StreamCall) (given : Text) : Text :=
  match call with
  | read _ | readLine => given
  | write _ | writeLine _ | peek _ | peekLine => []

/-- What is read by calls that give texts one after the other. -/
def takenAll (calls : List StreamCall) (given : List Text) : Text :=
  (List.zipWith taken calls given).flatten

variable {disk : Disk} {stream : Stream}

@[simp] theorem takenAll_cons (call : StreamCall) (calls : List StreamCall) (given : Text)
    (others : List Text) :
    takenAll (call :: calls) (given :: others) = call.taken given ++ takenAll calls others :=
  rfl

/-- The first call gives its text, and the others go on with the stream and the disk after it. -/
theorem runAll_cons (disk : Disk) (stream : Stream) (call : StreamCall) (calls : List StreamCall) :
    runAll disk stream (call :: calls) =
      ((call.run disk stream).1 ::
          (runAll (call.run disk stream).2.2 (call.run disk stream).2.1 calls).1,
        (runAll (call.run disk stream).2.2 (call.run disk stream).2.1 calls).2) :=
  rfl

/-! ### Reading without writing -/

section Reading

/-- A call that does not write takes a part off the front of what is unread, and the stream goes on
behind it. -/
theorem run_of_not_writes {call : StreamCall} (h : ¬call.Writes) (disk : Disk) (stream : Stream) :
    (call.run disk stream).2 =
        (stream.advance (call.taken (call.run disk stream).1).length, disk) ∧
      call.taken (call.run disk stream).1 <+: stream.unread disk := by
  cases call with
  | write text | writeLine text => exact absurd trivial h
  | read count => exact ⟨rfl, prefix_takeFirst _ _⟩
  | readLine => exact ⟨rfl, prefix_takeFirst _ _⟩
  | peek count | peekLine => exact ⟨by simp [run, taken], List.nil_prefix⟩

/-- Calls that do not write take a part off the front of what is unread, and the stream goes on
behind it. -/
theorem runAll_of_not_writes {calls : List StreamCall} (h : ∀ call ∈ calls, ¬call.Writes)
    (disk : Disk) (stream : Stream) :
    (runAll disk stream calls).2 =
        (stream.advance (takenAll calls (runAll disk stream calls).1).length, disk) ∧
      takenAll calls (runAll disk stream calls).1 <+: stream.unread disk := by
  induction calls generalizing stream with
  | nil => exact ⟨by simp [runAll, takenAll], List.nil_prefix⟩
  | cons call calls ih =>
    obtain ⟨hcall, hcalls⟩ := List.forall_mem_cons.1 h
    obtain ⟨hrun, hfront⟩ := run_of_not_writes hcall disk stream
    obtain ⟨hrest, hback⟩ := ih hcalls (stream.advance (call.taken (call.run disk stream).1).length)
    rw [runAll_cons, hrun, takenAll_cons]
    refine ⟨?_, ?_⟩
    · rw [hrest, Stream.advance_advance, List.length_append]
    · rw [Stream.unread_advance] at hback
      rw [← List.prefix_iff_eq_append.1 hfront]
      exact (List.prefix_append_right_inj _).2 hback

/-- What is read from a stream on a file that nothing writes to is what lies between its
positions. -/
theorem runAll_file {calls : List StreamCall} (h : ∀ call ∈ calls, ¬call.Writes) (disk : Disk)
    (inode : Inode) (pointer : Nat) :
    ∃ final, pointer ≤ final ∧
      (runAll disk (.file inode pointer) calls).2 = (.file inode final, disk) ∧
      takenAll calls (runAll disk (.file inode pointer) calls).1 =
        ((disk.read inode).take final).drop pointer := by
  obtain ⟨hafter, hfront⟩ := runAll_of_not_writes h disk (.file inode pointer)
  refine ⟨_, Nat.le_add_right pointer _, hafter, ?_⟩
  rw [List.drop_take, Nat.add_sub_cancel_left]
  exact List.prefix_iff_eq_take.1 hfront

/-- Line by line a stream gives the lines of what is unread, and then nothing. -/
theorem runAll_readLine (disk : Disk) (stream : Stream) :
    (runAll disk stream
        (List.replicate ((Text.lines (stream.unread disk)).length + 1) readLine)).1 =
      Text.lines (stream.unread disk) ++ [[]] := by
  have hline (stream : Stream) : (readLine.run disk stream).1 =
      (Text.lines (stream.unread disk)).headD [] :=
    Text.takeFirst_lineLength _
  -- The induction is on the lines of what is unread, of which each call takes the first.
  generalize hlines : Text.lines (stream.unread disk) = pieces
  induction pieces generalizing stream with
  | nil =>
    change [(readLine.run disk stream).1] = [[]]
    rw [hline, hlines]
    rfl
  | cons line more ih =>
    have hfirst : (readLine.run disk stream).1 = line := by
      rw [hline, hlines]
      rfl
    have hafter : (readLine.run disk stream).2 = (stream.advance line.length, disk) := by
      rw [← hfirst]
      rfl
    rw [List.length_cons, List.replicate_succ, runAll_cons, hfirst, hafter,
      ih _ (by rw [Stream.unread_advance, Text.lines_drop hlines]), List.cons_append]

end Reading

/-! ### Buffers -/

section Buffers

/-- The text that several calls write. -/
def writtenAll (calls : List StreamCall) : Text := calls.flatMap written

/-- A call on a buffer loses nothing of what the buffer held and of what the call writes. -/
theorem run_buffer (disk : Disk) (held : Text) (call : StreamCall) :
    ∃ rest, (call.run disk (.buffer held)).2 = (.buffer rest, disk) ∧
      call.taken (call.run disk (.buffer held)).1 ++ rest = held ++ call.written := by
  by_cases hwrites : call.Writes
  · cases call with
    | write text => exact ⟨held ++ text, rfl, rfl⟩
    | writeLine text => exact ⟨held ++ (text ++ ['\n']), rfl, rfl⟩
    | read count | readLine | peek count | peekLine => exact hwrites.elim
  · obtain ⟨hafter, hfront⟩ := run_of_not_writes hwrites disk (.buffer held)
    have hwritten : call.written = [] := by
      cases call with
      | write text | writeLine text => exact absurd trivial hwrites
      | read count | readLine | peek count | peekLine => rfl
    refine ⟨_, hafter, ?_⟩
    rw [hwritten, List.append_nil]
    exact List.prefix_iff_eq_append.1 hfront

/-- Calls on a buffer lose nothing of what the buffer held and of what they write. -/
theorem runAll_buffer (disk : Disk) (held : Text) (calls : List StreamCall) :
    ∃ rest, (runAll disk (.buffer held) calls).2 = (.buffer rest, disk) ∧
      takenAll calls (runAll disk (.buffer held) calls).1 ++ rest = held ++ writtenAll calls := by
  induction calls generalizing held with
  | nil => exact ⟨held, rfl, (List.append_nil held).symm⟩
  | cons call calls ih =>
    obtain ⟨between, hafter, hcall⟩ := run_buffer disk held call
    obtain ⟨rest, hlast, hcalls⟩ := ih between
    refine ⟨rest, ?_, ?_⟩
    · rw [runAll_cons, hafter, hlast]
    · rw [runAll_cons, hafter, takenAll_cons, List.append_assoc, hcalls, ← List.append_assoc, hcall,
        List.append_assoc]
      rfl

end Buffers

/-- Reading loses no text and makes up none. Whatever the calls on a buffer, what they read and what
is still unread is what the buffer held and what they write. What is read from a stream on a file
that nothing writes to is what lies between its positions, and from a null file nothing is read.
Looking at a stream gives what reading would give and changes nothing. Whoever reads lines until one
is empty comes to an end, and has been given all that was unread, cut behind its line breaks. -/
theorem reading_conserves (disk : Disk) :
    (∀ held calls, ∃ rest,
      (runAll disk (.buffer held) calls).2 = (.buffer rest, disk) ∧
        takenAll calls (runAll disk (.buffer held) calls).1 ++ rest = held ++ writtenAll calls) ∧
    (∀ calls : List StreamCall, (∀ call ∈ calls, ¬call.Writes) →
      (∀ inode pointer, ∃ final, pointer ≤ final ∧
        (runAll disk (.file inode pointer) calls).2 = (.file inode final, disk) ∧
        takenAll calls (runAll disk (.file inode pointer) calls).1 =
          ((disk.read inode).take final).drop pointer) ∧
      (runAll disk .null calls).2 = (.null, disk) ∧
        takenAll calls (runAll disk .null calls).1 = []) ∧
    (∀ stream count,
      (peek count).run disk stream = (((read count).run disk stream).1, stream, disk) ∧
        peekLine.run disk stream = ((readLine.run disk stream).1, stream, disk)) ∧
    ∀ stream : Stream, ∃ pieces : List Text,
      (runAll disk stream (List.replicate (pieces.length + 1) readLine)).1 = pieces ++ [[]] ∧
        [] ∉ pieces ∧ pieces.flatten = stream.unread disk ∧
        (∀ piece ∈ pieces.dropLast, Text.IsLine piece) ∧
        ∀ piece ∈ pieces.getLast?, Text.IsLine piece ∨ '\n' ∉ piece := by
  refine ⟨fun held calls => runAll_buffer disk held calls, fun calls h => ⟨?_, ?_⟩,
    fun stream count => ⟨rfl, rfl⟩, fun stream => ?_⟩
  · exact fun inode pointer => runAll_file h disk inode pointer
  · obtain ⟨hafter, hfront⟩ := runAll_of_not_writes h disk .null
    exact ⟨hafter, List.prefix_nil.1 hfront⟩
  · refine ⟨Text.lines (stream.unread disk), runAll_readLine disk stream, ?_⟩
    exact ⟨Text.nil_not_mem_lines _, Text.flatten_lines _, Text.isLine_of_mem_lines _⟩

theorem reading_conserves_verse :
    let disk : Disk := ⟨#["ash\noak\nelm"]⟩
    let calls := [peek (some (-2)), read (some 2), peekLine, readLine, read (some (-4)), readLine]
    (∀ call ∈ calls, ¬call.Writes) ∧
      (∃ final, 1 ≤ final ∧ (runAll disk (.file 0 1) calls).2 = (.file 0 final, disk) ∧
        takenAll calls (runAll disk (.file 0 1) calls).1 =
          ((disk.read 0).take final).drop 1) ∧
      (runAll disk (.file 0 1) calls).1 =
        (["sh\noak\ne", "sh", "\n", "\n", "oak", "\n"] : List Text) := by
  have hreads : ∀ call ∈ [peek (some (-2)), read (some 2), peekLine, readLine,
      read (some (-4)), readLine], ¬call.Writes := by
    decide
  refine ⟨hreads, ?_, by decide⟩
  exact ((reading_conserves ⟨#["ash\noak\nelm"]⟩).2.1 _ hreads).1 0 1

end StreamCall

end MemShell
