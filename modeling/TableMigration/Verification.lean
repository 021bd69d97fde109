/-
**Verification.**

* `Task.partitionAgrees` compares what the source and the destination counted for a partition, and
  `Task.validatePartitions` divides the partitions of a task by it, both parts in the order of the
  task.
* `Task.verify` runs the final verification: it records the partitions that do not agree as failed,
  and fails if there is one.
-/

import TableMigration.Task

namespace TableMigration

/-! ### Comparing counts -/

namespace Task

/-- The counts that a validation reported for the table of a task. -/
def tableCounts (task : Task) (action : Action) : RowCounts :=
  (task.rowCounts action task.table.fullName).getD []

/-- Whether both validations counted the same under a key. -/
def countsAgree (task : Task) (key : String) : Bool :=
  (task.tableCounts .sourceValidate).agree (task.tableCounts .destinationValidate) key

/-- Whether both validations counted the same for a partition. -/
def partitionAgrees (task : Task) (partition : Partition) : Bool :=
  task.countsAgree partition.key

/-- Divide the partitions of a task. -/
def validatePartitions (task : Task) : Validation where
  succeeded := task.table.partitions.filter task.partitionAgrees
  failed := task.table.partitions.filter fun partition => !task.partitionAgrees partition

/-- What is told about the partitions that do not agree. -/
def mismatchNotices (task : Task) : List Notice :=
  task.validatePartitions.failed.map fun partition =>
    .partitionMismatch task.table.fullName partition.key

/-- Whether both validations counted the same for the whole table. -/
def validateTable (task : Task) : Bool :=
  task.countsAgree ""

end Task

/-! ### The final verification -/

namespace Task

/-- The result of a division of the partitions. -/
def verdict (validation : Validation) : Execution :=
  let result :=
    if validation.failed.isEmpty then Execution.succeed
    else Execution.fail s!"{validation.failed.length} partition(s) failed validation"
  { result with validation := some validation }

/-- Record partitions as failed, if there are any and there is a store. A store that refuses is
only reported. -/
def recordMismatch {σ : Type} (backend : Backend σ) (store : Option StoreRef) (task : Task)
    (partitions : List Partition) (state : σ) : List Event × σ :=
  match store with
  | none => ([], state)
  | some store =>
    if partitions.isEmpty then ([], state)
    else
      let write := Write.status task.table.database task.table.name partitions .failed
      let (outcome, events, state) := backend.perform store write state
      match outcome with
      | .ok _ => (events, state)
      | .error reason => (events ++ [.notice (.mismatchUnrecorded task.name reason)], state)

/-- Run an action on the verification engine, which knows the final verification only. -/
def verify {σ : Type} (backend : Backend σ) (store : Option StoreRef) (task : Task)
    (action : Action) (state : σ) : Execution × List Event × σ :=
  if action ≠ .finalVerification then
    (.fail s!"Unsupported action on validation engine: {action.name}", [], state)
  else if !task.table.isPartitioned then
    if task.validateTable then (.succeed, [], state)
    else (.fail s!"Row count mismatch on table {task.table.fullName}", [], state)
  else
    let validation := task.validatePartitions
    let (events, state) := task.recordMismatch backend store validation.failed state
    (verdict validation, task.mismatchNotices.map .notice ++ events, state)

end Task

end TableMigration
