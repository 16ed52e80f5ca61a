import MemShell.Log.Buffer
import Mathlib.Data.List.DropRight

/-!
# What a buffer holds

A buffer drops its oldest records when there are more than its capacity, and a question gives the
last records that it looks for. Both count from the end, where a count of zero means everything.
Main statement: since its last clearing a buffer holds the last records up to its capacity and gives
the last matching ones up to the limit, exactly if there is nothing to drop for a count of zero.
-/

namespace MemShell

section Last

variable {α : Type} (items : List α)

/-- A count of zero gives all items. -/
@[simp] theorem takeLast_zero : takeLast items 0 = items := rfl

/-- A count that is not zero gives that many of the last items, or all if there are fewer. -/
theorem takeLast_eq_rtake {count : Nat} (h : 0 < count) :
    takeLast items count = items.rtake count := by
  obtain ⟨n, rfl⟩ := Nat.exists_eq_succ_of_ne_zero (Nat.ne_of_gt h)
  rfl

/-- The last items by a count: a count of zero gives them all. -/
theorem takeLast_natCast (count : Nat) :
    takeLast items count = if count = 0 then items else items.rtake count := by
  split
  · next h =>
    rw [h]
    rfl
  · next h => exact takeLast_eq_rtake items (Nat.pos_of_ne_zero h)

/-- As many last items as there are at most are all of them. -/
theorem takeLast_of_length_le {count : Nat} (h : items.length ≤ count) :
    takeLast items count = items := by
  rw [takeLast_natCast]
  split
  · rfl
  · rw [List.rtake, Nat.sub_eq_zero_of_le h, List.drop_zero]

/-- One more item is added to the last items as it is to all of them. -/
theorem takeLast_concat (count : Nat) (item : α) :
    takeLast (takeLast items count ++ [item]) count = takeLast (items ++ [item]) count := by
  cases count with
  | zero => rfl
  | succ n =>
    simp only [takeLast_eq_rtake _ (Nat.succ_pos n), List.rtake_concat_succ]
    have hlast : (items.rtake (n + 1)).rtake n = items.rtake n := by
      simp only [List.rtake, List.drop_drop, List.length_drop]
      congr 1
      omega
    rw [hlast]

/-- The last items by a count are that many at most exactly if the count is not zero or there are
none. -/
theorem takeLast_eq_rtake_iff (count : Nat) :
    takeLast items count = items.rtake count ↔ 0 < count ∨ items = [] := by
  rcases Nat.eq_zero_or_pos count with rfl | hpos
  · simp
  · exact iff_of_true (takeLast_eq_rtake items hpos) (.inl hpos)

/-- There are as many last items as the count says at most, exactly if the count is not zero or
there are none. -/
theorem length_takeLast_le_iff (count : Nat) :
    (takeLast items count).length ≤ count ↔ 0 < count ∨ items = [] := by
  rcases Nat.eq_zero_or_pos count with rfl | hpos
  · simp
  · refine iff_of_true ?_ (.inl hpos)
    rw [takeLast_eq_rtake items hpos, List.rtake, List.length_drop]
    omega

end Last

namespace LogQuery

/-- A record passes the filters of a question. An empty name filters nothing out. -/
def Admits (query : LogQuery) (record : Record) : Prop :=
  (query.level = [] ∨ record.level.name = query.level) ∧
    (query.subsystem = [] ∨ record.subsystem = some query.subsystem)

instance (query : LogQuery) : DecidablePred query.Admits :=
  fun _ => inferInstanceAs (Decidable (_ ∧ _))

/-- The records that a question looks for are those that pass its filters. -/
theorem matchesRecord_eq (query : LogQuery) :
    query.matchesRecord = fun record => decide (query.Admits record) := by
  ext record
  rw [Bool.eq_iff_iff, decide_eq_true_iff]
  simp [matchesRecord, Admits]

end LogQuery

/-- A call on a buffer. -/
inductive BufferCall
  /-- Adds a record. -/
  | emit (record : Record)
  /-- Drops all records. -/
  | clear

namespace BufferCall

/-- The record that a call adds; clearing adds none. -/
def record? : BufferCall → Option Record
  | emit record => some record
  | clear => none

/-- The records that have been added since the last clearing. -/
def emitted (calls : List BufferCall) : List Record :=
  (calls.rtakeWhile fun call => call.record?.isSome).filterMap record?

/-- An added record is the last one. -/
theorem emitted_concat_emit (calls : List BufferCall) (record : Record) :
    emitted (calls ++ [emit record]) = emitted calls ++ [record] := by
  simp [emitted, record?]

/-- After clearing nothing has been added. -/
theorem emitted_concat_clear (calls : List BufferCall) : emitted (calls ++ [clear]) = [] := by
  simp [emitted, record?]

end BufferCall

namespace LogBuffer

open BufferCall

/-- The buffer after a call. -/
def after (buffer : LogBuffer) : BufferCall → LogBuffer
  | .emit record => buffer.emit record
  | .clear => buffer.clear

/-- The buffer after several calls. -/
def run (buffer : LogBuffer) (calls : List BufferCall) : LogBuffer := calls.foldl after buffer

/-- A call does not change the capacity. -/
theorem capacity_after (buffer : LogBuffer) (call : BufferCall) :
    (buffer.after call).capacity = buffer.capacity := by
  cases call <;> rfl

/-- A run does not change the capacity. -/
theorem capacity_run (buffer : LogBuffer) (calls : List BufferCall) :
    (buffer.run calls).capacity = buffer.capacity := by
  induction calls generalizing buffer with
  | nil => rfl
  | cons call calls ih => exact (ih (buffer.after call)).trans (buffer.capacity_after call)

/-- A buffer with one more record holds the last records up to its capacity. -/
theorem records_emit {buffer : LogBuffer} {capacity : Nat} (h : buffer.capacity = capacity)
    (record : Record) :
    (buffer.emit record).records = takeLast (buffer.records ++ [record]) capacity := by
  simp only [emit, h]
  split
  · rfl
  · next hle => exact (takeLast_of_length_le _ (by omega)).symm

/-- Since its last clearing a buffer holds the last records by its capacity. -/
theorem records_run (capacity : Nat) (calls : List BufferCall) :
    ((empty capacity).run calls).records = takeLast (emitted calls) capacity := by
  induction calls using List.reverseRecOn with
  | nil => exact (takeLast_of_length_le [] (Nat.zero_le _)).symm
  | append_singleton calls call ih =>
    rw [run, List.foldl_concat, ← run]
    cases call with
    | emit record =>
      rw [after, records_emit (capacity_run _ calls), ih, takeLast_concat, emitted_concat_emit]
    | clear =>
      rw [emitted_concat_clear]
      exact (takeLast_of_length_le [] (Nat.zero_le _)).symm

/-- A question gives the last of the records that pass its filters, by its limit. -/
theorem find_eq (buffer : LogBuffer) (query : LogQuery) :
    buffer.find query =
      takeLast (buffer.records.filter fun record => query.Admits record) query.limit := by
  rw [find, LogQuery.matchesRecord_eq]

/-- After any calls a buffer holds the last records that were added since the last clearing, as many
as its capacity says, and a question gives the last of them that pass its filters, as many as its
limit says. A capacity and a limit of zero say all of them instead of none; so the number is kept to
exactly if it is not zero or there is nothing to leave out. -/
theorem keepsNewest_iff (capacity : Nat) (calls : List BufferCall) :
    let buffer := (empty capacity).run calls
    let added := emitted calls
    buffer.records = (if capacity = 0 then added else added.rtake capacity) ∧
      (buffer.records = added.rtake capacity ↔ 0 < capacity ∨ added = []) ∧
      (buffer.records.length ≤ capacity ↔ 0 < capacity ∨ added = []) ∧
      ∀ (level subsystem : Text) (limit : Nat),
        let query : LogQuery := ⟨level, subsystem, limit⟩
        let matching := buffer.records.filter fun record => query.Admits record
        buffer.find query = (if limit = 0 then matching else matching.rtake limit) ∧
          (buffer.find query = matching.rtake limit ↔ 0 < limit ∨ matching = []) := by
  intro buffer added
  have hrecords : buffer.records = takeLast added capacity := records_run capacity calls
  refine ⟨?_, ?_, ?_, ?_⟩
  · rw [hrecords, takeLast_natCast]
  · rw [hrecords, takeLast_eq_rtake_iff]
  · rw [hrecords, length_takeLast_le_iff]
  · intro level subsystem limit query matching
    have hfind : buffer.find query = takeLast matching limit := find_eq buffer query
    constructor
    · rw [hfind, takeLast_natCast]
    · rw [hfind, takeLast_eq_rtake_iff]

/-- A buffer of capacity zero keeps a record, and a limit of zero gives it. -/
theorem keeps_zero :
    let record := Record.plain .info "test" "a" []
    let buffer := (empty 0).run [.emit record]
    emitted [.emit record] = [record] ∧ ¬buffer.records.length ≤ 0 ∧
      buffer.records ≠ (emitted [.emit record]).rtake 0 ∧
      buffer.find ⟨[], [], 0⟩ = [record] := by
  intro record buffer
  have hadded : emitted [.emit record] = [record] := rfl
  have hrecords : buffer.records = [record] := rfl
  rw [hadded, hrecords, List.rtake_zero]
  exact ⟨rfl, by simp, by simp, rfl⟩

end LogBuffer

end MemShell
