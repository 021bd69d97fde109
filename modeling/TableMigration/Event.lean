/-
**What can be seen from outside.**

* A `Write` is a call that changes a store; a component knows a store by its `StoreRef`.
* An `Event` is anything that can be seen while something runs: a line for the operators, a call on
  a store or an engine, a signal to an observer.
-/

import TableMigration.Execution
import TableMigration.Notice

namespace TableMigration

/-- The number of a store. Components that hold the same number share the store. -/
abbrev StoreRef := Nat

/-- A call that changes a store. -/
inductive Write where
  /-- Set the status of some partitions. An empty list addresses the row of the table. -/
  | status (database table : String) (partitions : List Partition) (status : Status)
  /-- Record a failed attempt of a whole table. -/
  | failure (database table : String)
  deriving DecidableEq

/-- Something that can be seen. Tasks are known by their numbers. -/
inductive Event where
  /-- A line for the operators. -/
  | notice (notice : Notice)
  /-- The configuration of a table was asked for. -/
  | configRead (store : StoreRef) (database table : String)
  /-- A write was made on a store, whatever came of it. -/
  | wrote (store : StoreRef) (write : Write)
  /-- An observer was told that a task of the table failed. -/
  | signalled (database table : String)
  /-- An engine was called for an action of a task, with this result. -/
  | called (engine : Engine) (task : Nat) (action : Action) (execution : Execution)
  /-- The counts of a task were compared without calling an engine, with this result. -/
  | verified (task : Nat) (execution : Execution)
  deriving DecidableEq

end TableMigration
