/-
**A store in memory.**

* There is one row for every registered table and one for every partition that was registered or
  written. A row counts the failed attempts; after a failure it waits for the next attempt as long
  as the count is within the retry limit, and stays failed after that (`Row.record`).
* Rows are found by the full name of the table and the key of the partition.
* A call that fails changes nothing: it returns a `StoreError` and no memory.
-/

import TableMigration.Keyed
import TableMigration.Store

namespace TableMigration

/-! ### Rows -/

/-- What is known about a table or a partition. -/
structure Row where
  status : Status
  attempts : Nat
  deriving DecidableEq

/-- The row of something that was never tried. -/
def Row.fresh : Row :=
  ⟨.pending, 0⟩

/-- The status after a number of failed attempts. -/
def Status.afterFailure (retryLimit : Int) (attempts : Nat) : Status :=
  if retryLimit < attempts then .failed else .pending

/-- Write a status into a row. A failure is counted, and leaves the status the count calls for. -/
def Row.record (retryLimit : Int) (status : Status) (row : Row) : Row :=
  match status with
  | .failed => ⟨.afterFailure retryLimit (row.attempts + 1), row.attempts + 1⟩
  | other => ⟨other, row.attempts⟩

theorem Row.attempts_record (retryLimit : Int) (status : Status) (row : Row) :
    (row.record retryLimit status).attempts
      = row.attempts + if status = .failed then 1 else 0 := by
  cases status <;> rfl

/-- The row of a table, and the rows of its partitions under their keys. -/
structure TableRow where
  partitioned : Bool
  config : TableConfig
  row : Row
  partitions : Keyed Row
  deriving DecidableEq

/-- The rows of a table that is new to the store. -/
def TableRow.register (table : Table) (config : TableConfig) : TableRow where
  partitioned := table.isPartitioned
  config := config
  row := .fresh
  partitions := table.partitions.foldl (fun rows partition => rows.put partition.key .fresh) []

/-- Write a status into the rows of some partitions, one after the other. A partition that has no
row gets one first. -/
def TableRow.recordPartitions (retryLimit : Int) (status : Status) (partitions : List Partition)
    (entry : TableRow) : TableRow :=
  let write (rows : Keyed Row) (partition : Partition) : Keyed Row :=
    rows.put partition.key (((rows.get? partition.key).getD .fresh).record retryLimit status)
  { entry with partitions := partitions.foldl write entry.partitions }

/-! ### The memory -/

/-- Why a call on a memory fails. -/
inductive StoreError where
  | invalidGroupSize (size : Int)
  | tableExists (table : String)
  | tableUnknown (table : String)
  | notPartitioned (table : String)
  | partitionUnknown (partition : String)
  deriving DecidableEq

/-- The failure that is raised for an error. -/
def StoreError.failure : StoreError → Failure
  | .invalidGroupSize size => ⟨.invalidArgument, s!"Invalid partition group size: {size}"⟩
  | .tableExists table => ⟨.alreadyExists, s!"Table already exists: {table}"⟩
  | .tableUnknown table => ⟨.notFound, s!"Table not found: {table}"⟩
  | .notPartitioned table =>
    ⟨.invalidArgument, s!"Partition status update on non-partitioned table: {table}"⟩
  | .partitionUnknown partition => ⟨.notFound, s!"Partition not found: {partition}"⟩

/-- The text of an error. -/
def StoreError.message (error : StoreError) : String :=
  error.failure.what

/-- The rows of all registered tables under their full names. -/
structure Memory where
  retryLimit : Int
  tables : Keyed TableRow
  deriving DecidableEq

namespace Memory

/-- A memory that knows no table. -/
def empty (retryLimit : Int) : Memory :=
  ⟨retryLimit, []⟩

/-- The rows of a registered table. -/
def find (memory : Memory) (database table : String) : Except StoreError TableRow :=
  match memory.tables.get? (Table.joinNames database table) with
  | some entry => .ok entry
  | none => .error (.tableUnknown (Table.joinNames database table))

/-- Replace the rows of a table. -/
def put (memory : Memory) (database table : String) (entry : TableRow) : Memory :=
  { memory with tables := memory.tables.put (Table.joinNames database table) entry }

/-- Register a table. A group size that is set has to be positive. -/
def addTable (memory : Memory) (table : Table) (config : TableConfig) :
    Except StoreError Memory :=
  match config.groupSize with
  | some size => if size ≤ 0 then .error (.invalidGroupSize size) else register
  | none => register
where
  /-- The part that looks at the tables. -/
  register : Except StoreError Memory :=
    if memory.tables.contains table.fullName then .error (.tableExists table.fullName)
    else .ok (memory.put table.database table.name (.register table config))

/-- Replace what is set for a table. -/
def setConfig (memory : Memory) (database table : String) (config : TableConfig) :
    Except StoreError Memory := do
  let entry ← memory.find database table
  return memory.put database table { entry with config := config }

/-- What is set for a table. -/
def config (memory : Memory) (database table : String) : Except StoreError TableConfig := do
  let entry ← memory.find database table
  return entry.config

/-- Set the status of the row of a table, or of the rows of some of its partitions. -/
def updateStatus (memory : Memory) (database table : String) (partitions : List Partition)
    (status : Status) : Except StoreError (Memory × List Notice) := do
  let entry ← memory.find database table
  if partitions.isEmpty then
    let row := entry.row.record memory.retryLimit status
    return (memory.put database table { entry with row := row },
      [.tableStatus (Table.joinNames database table) row.status])
  else if entry.partitioned then
    return (memory.put database table
      (entry.recordPartitions memory.retryLimit status partitions), [])
  else
    throw (.notPartitioned (Table.joinNames database table))

/-- Make a write. Recording a failed attempt of a table is writing a failure into its row. -/
def perform (memory : Memory) : Write → Except StoreError (Memory × List Notice)
  | .status database table partitions status =>
    memory.updateStatus database table partitions status
  | .failure database table => memory.updateStatus database table [] .failed

/-- The status of a table. -/
def tableStatus (memory : Memory) (database table : String) : Except StoreError Status := do
  let entry ← memory.find database table
  return entry.row.status

/-- The number of failed attempts of a table. -/
def attempts (memory : Memory) (database table : String) : Except StoreError Nat := do
  let entry ← memory.find database table
  return entry.row.attempts

/-- The status of a partition. -/
def partitionStatus (memory : Memory) (database table : String) (partition : Partition) :
    Except StoreError Status := do
  let entry ← memory.find database table
  match entry.partitions.get? partition.key with
  | some row => return row.status
  | none => throw (.partitionUnknown partition.key)

/-- The partitions of a table that have no row or are not migrated yet, in the order of the
table. -/
def partitionsToMigrate (memory : Memory) (table : Table) : Except StoreError (List Partition) := do
  let entry ← memory.find table.database table.name
  return table.partitions.filter fun partition =>
    (entry.partitions.get? partition.key).all fun row => row.status != .succeeded

end Memory

end TableMigration
