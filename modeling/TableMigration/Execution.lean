/-
**What an action finds out.**

* A `Validation` divides partitions into those whose counts agree and the others.
* An `Execution` is the result of running an action on an engine: how it ended, what it counted or
  compared, and a message.
-/

import TableMigration.Action
import TableMigration.Count
import TableMigration.Table

namespace TableMigration

/-- Partitions, divided into those whose counts agree and the others. -/
structure Validation where
  succeeded : List Partition
  failed : List Partition
  deriving DecidableEq, Inhabited

/-- The result of an action. -/
structure Execution where
  progress : Progress
  counts : Option RowCounts
  validation : Option Validation
  message : String
  deriving DecidableEq

/-- An action that succeeded and found out nothing. -/
def Execution.succeed : Execution :=
  ⟨.succeeded, none, none, ""⟩

/-- An action that failed. -/
def Execution.fail (message : String) : Execution :=
  ⟨.failed, none, none, message⟩

end TableMigration
