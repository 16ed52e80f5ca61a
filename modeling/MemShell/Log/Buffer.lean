import MemShell.Log.Record
import MemShell.Map.Slice

/-!
# The recent records

A buffer keeps the last records up to its capacity, and answers which of them are of a level and of
a subsystem. A capacity of zero sets no bound, and a limit of zero asks for everything, since the
last items are counted from the end.
-/

namespace MemShell

/-- The last records of a session. -/
structure LogBuffer where
  /-- How many records are kept. -/
  capacity : Int
  /-- The records, the oldest first. -/
  records : List Record

/-- A question about the recent records. -/
structure LogQuery where
  /-- The name of the level to look for; empty for all levels. -/
  level : Text
  /-- The subsystem to look for; empty for all subsystems. -/
  subsystem : Text
  /-- How many of the last matching records to give. -/
  limit : Int

namespace LogQuery

/-- The last hundred records. -/
def lastHundred : LogQuery := ⟨[], [], 100⟩

/-- Whether a record is looked for. -/
def matchesRecord (query : LogQuery) (record : Record) : Bool :=
  (query.level.isEmpty || decide (record.level.name = query.level)) &&
    (query.subsystem.isEmpty || decide (record.subsystem = some query.subsystem))

end LogQuery

namespace LogBuffer

/-- A buffer without records. -/
def empty (capacity : Int) : LogBuffer := ⟨capacity, []⟩

/-- The buffer after one more record. -/
def emit (buffer : LogBuffer) (record : Record) : LogBuffer :=
  let records := buffer.records ++ [record]
  { buffer with
    records := if (records.length : Int) > buffer.capacity then takeLast records buffer.capacity
      else records }

/-- The buffer without its records. -/
def clear (buffer : LogBuffer) : LogBuffer := { buffer with records := [] }

/-- The records that a question asks for, the oldest first. -/
def find (buffer : LogBuffer) (query : LogQuery) : List Record :=
  takeLast (buffer.records.filter query.matchesRecord) query.limit

end LogBuffer

end MemShell
