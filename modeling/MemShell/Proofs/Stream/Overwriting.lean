import MemShell.Stream.Basic

/-!
# Writing over text

A text that is written to a stream on a file replaces as much as it is long of what stands from the
position of the stream on, and what goes beyond the end is appended. A position that lies beyond the
end, because the file has been emptied meanwhile, counts as the end. Main statement: a write does
this and nothing else, and two texts that are written one after the other are written as if they
were one.
-/

namespace MemShell

section Overwrite

variable {contents start text : Text} {pointer : Nat}

/-- Writing at the end appends. -/
theorem overwrite_length (contents text : Text) :
    overwrite contents contents.length text = contents ++ text := by
  rw [overwrite, List.take_length, List.drop_eq_nil_of_le (Nat.le_add_right _ _), List.append_nil]

/-- Writing nothing changes nothing. -/
theorem overwrite_nil (contents : Text) (pointer : Nat) :
    overwrite contents pointer [] = contents := by
  rw [overwrite, List.append_nil, List.length_nil, Nat.add_zero, List.take_append_drop]

/-- A text grows by what is written beyond its end. -/
theorem length_overwrite (h : pointer ≤ contents.length) (text : Text) :
    (overwrite contents pointer text).length = max contents.length (pointer + text.length) := by
  rw [overwrite, List.length_append, List.length_append, List.length_take, List.length_drop,
    Nat.min_eq_left h]
  omega

/-- What stands before the position stays. -/
theorem prefix_overwrite (hstart : start <+: contents) (h : start.length ≤ pointer) (text : Text) :
    start <+: overwrite contents pointer text := by
  rw [overwrite, List.append_assoc]
  exact List.prefix_append_of_prefix (List.prefix_take_iff.2 ⟨hstart, h⟩)

/-- The text that has been written ends as far behind the position, or behind the end if the
position lies beyond it, as it is long. -/
theorem end_overwrite (contents : Text) (pointer : Nat) (text : Text) :
    min (pointer + text.length) (overwrite contents pointer text).length =
      min pointer contents.length + text.length := by
  simp only [overwrite, List.length_append, List.length_take, List.length_drop]
  omega

/-- A text that is written where another one ends is written as if it were the end of that one. -/
theorem overwrite_overwrite (contents : Text) (pointer : Nat) (first second : Text) :
    overwrite (overwrite contents pointer first) (min pointer contents.length + first.length)
        second =
      overwrite contents pointer (first ++ second) := by
  have hfront : (contents.take pointer ++ first).length =
      min pointer contents.length + first.length := by
    rw [List.length_append, List.length_take]
  have htail : (contents.take pointer ++ first ++ contents.drop (pointer + first.length)).drop
        ((contents.take pointer ++ first).length + second.length) =
      contents.drop (pointer + (first ++ second).length) := by
    rw [List.drop_length_add_append, List.drop_drop, List.length_append, Nat.add_assoc]
  rw [overwrite, overwrite, overwrite, ← hfront, List.take_left, htail]
  simp only [List.append_assoc]

end Overwrite

/-- Of two texts that are written for a number the later one stays. -/
theorem Disk.write_write (disk : Disk) (inode : Inode) (text more : Text) :
    (disk.write inode text).write inode more = disk.write inode more :=
  congrArg Disk.mk (Array.setIfInBounds_setIfInBounds _)

namespace Stream

/-- The file of a stream is on the disk, if the stream is on a file. -/
def OnDisk (disk : Disk) : Stream → Prop
  | file inode _ => inode < disk.next
  | _ => True

instance (disk : Disk) : (stream : Stream) → Decidable (stream.OnDisk disk)
  | file inode _ => inferInstanceAs (Decidable (inode < disk.next))
  | buffer _ | null => isTrue trivial

variable {disk : Disk} {stream : Stream}

/-- A write to a stream on a file leaves the stream where the text that has been written ends. -/
theorem write_file (disk : Disk) (inode : Inode) (pointer : Nat) (text : Text) :
    (file inode pointer).write disk text =
      (file inode (min pointer (disk.read inode).length + text.length),
        disk.write inode (overwrite (disk.read inode) pointer text)) := by
  rw [write, end_overwrite]

/-- Two texts are written one after the other as if they were one. -/
theorem write_write (h : stream.OnDisk disk) (first second : Text) :
    (stream.write disk first).1.write (stream.write disk first).2 second =
      stream.write disk (first ++ second) := by
  cases stream with
  | buffer unread =>
    change (buffer (unread ++ first ++ second), disk) = (buffer (unread ++ (first ++ second)), disk)
    rw [List.append_assoc]
  | null => rfl
  | file inode pointer =>
    have hread : (disk.write inode (overwrite (disk.read inode) pointer first)).read inode =
        overwrite (disk.read inode) pointer first := by
      rw [Disk.read_write h, if_pos rfl]
    -- The first text ends inside the contents that it leaves.
    have hinside : min (min pointer (disk.read inode).length + first.length)
          (overwrite (disk.read inode) pointer first).length =
        min pointer (disk.read inode).length + first.length := by
      rw [← end_overwrite, Nat.min_assoc, Nat.min_self]
    rw [write_file, write_file, write_file, hread, hinside, overwrite_overwrite, Disk.write_write,
      List.length_append, Nat.add_assoc]

/-- A write replaces text and inserts none: what stands before the position stays, then comes the
text, then what stood behind as many characters, and the position is where the text ends. No other
text changes. A null file stays empty. A text that is written after another one is written as if it
were the end of that one. -/
theorem write_replaces (disk : Disk) :
    (∀ inode < disk.next, ∀ pointer text,
      ((file inode pointer).write disk text).1 =
          file inode (min pointer (disk.read inode).length + text.length) ∧
        ((file inode pointer).write disk text).2.read inode =
          (disk.read inode).take (min pointer (disk.read inode).length) ++ text ++
            (disk.read inode).drop (pointer + text.length) ∧
        ∀ other ≠ inode,
          ((file inode pointer).write disk text).2.read other = disk.read other) ∧
    (∀ text, null.write disk text = (null, disk) ∧ null.unread disk = [] ∧ null.pointer = 0) ∧
    ∀ stream : Stream, stream.OnDisk disk → ∀ first second,
      (stream.write disk first).1.write (stream.write disk first).2 second =
        stream.write disk (first ++ second) := by
  refine ⟨fun inode hinode pointer text => ?_, fun text => ⟨rfl, rfl, rfl⟩,
    fun stream hstream first second => write_write hstream first second⟩
  rw [write_file]
  refine ⟨rfl, ?_, fun other hother => Disk.read_write_of_ne disk hother _⟩
  rw [Disk.read_write hinode, if_pos rfl, overwrite, List.take_eq_take_min]

/-- A disk with a file that has been emptied, and one that holds a word. -/
def slate : Disk := ⟨#[[], "chalk"]⟩

theorem write_replaces_slate :
    (file 0 5).OnDisk slate ∧
      ((file 0 5).write slate []).1.write ((file 0 5).write slate []).2 "new" =
        (file 0 3, ⟨#["new", "chalk"]⟩) ∧
      ((file 1 3).write slate "ice").1 = file 1 6 ∧
      ((file 1 3).write slate "ice").2.read 1 = "chaice" ∧
      ((file 1 3).write slate "ice").2.read 0 = [] := by
  obtain ⟨hwrites, -, hcompose⟩ := write_replaces slate
  obtain ⟨hstream, hread, hbeside⟩ := hwrites 1 (by decide) 3 "ice"
  refine ⟨by decide, (hcompose (file 0 5) (by decide) [] "new").trans (by decide), hstream, ?_,
    hbeside 0 (by decide)⟩
  rw [hread]
  decide

end Stream

end MemShell
