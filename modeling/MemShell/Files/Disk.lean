import MemShell.Text.Basic

/-!
# The disk

Every node of a file system has a number, and the disk holds the text of each number. A number is
given out once, so that an open stream finds the text of its file wherever the file has been moved.
-/

namespace MemShell

/-- The number of a node. -/
abbrev Inode := Nat

/-- The texts of all nodes that were ever made, by number. Nodes without a text have the empty one.
-/
structure Disk where
  /-- The texts in the order of their numbers. -/
  blocks : Array Text
  deriving DecidableEq

namespace Disk

/-- The disk without nodes. -/
def empty : Disk := ⟨#[]⟩

instance : Inhabited Disk := ⟨empty⟩

/-- The text of a number. -/
def read (disk : Disk) (inode : Inode) : Text := disk.blocks[inode]?.getD []

/-- The disk after the text of a number has been replaced. -/
def write (disk : Disk) (inode : Inode) (text : Text) : Disk :=
  ⟨disk.blocks.setIfInBounds inode text⟩

/-- A new number for a text. -/
def alloc (disk : Disk) (text : Text) : Inode × Disk := (disk.blocks.size, ⟨disk.blocks.push text⟩)

/-- The numbers that have been given out lie below this one. -/
def next (disk : Disk) : Inode := disk.blocks.size

/-- A write is read back, and no other text changes. -/
theorem read_write {disk : Disk} {inode : Inode} (h : inode < disk.next) (text : Text) (i : Inode) :
    (disk.write inode text).read i = if i = inode then text else disk.read i := by
  unfold next at h
  by_cases hi : i = inode
  · subst hi; simp [write, read, h]
  · simp [write, read, hi, Ne.symm hi]

/-- A write changes no other text, wherever it goes. -/
theorem read_write_of_ne (disk : Disk) {inode i : Inode} (h : i ≠ inode) (text : Text) :
    (disk.write inode text).read i = disk.read i := by
  simp [write, read, Ne.symm h]

/-- A new number holds its text, and no other text changes. -/
theorem read_alloc (disk : Disk) (text : Text) (i : Inode) :
    (disk.alloc text).2.read i = if i = disk.next then text else disk.read i := by
  unfold next
  by_cases hi : i = disk.blocks.size
  · subst hi; simp [alloc, read]
  · simp [alloc, read, hi, Array.getElem?_push]

/-- A write gives out no number. -/
@[simp] theorem next_write (disk : Disk) (inode : Inode) (text : Text) :
    (disk.write inode text).next = disk.next := by
  simp [write, next]

/-- A new number moves the bound on by one. -/
@[simp] theorem next_alloc (disk : Disk) (text : Text) :
    (disk.alloc text).2.next = disk.next + 1 := by
  simp [alloc, next]

end Disk

end MemShell
