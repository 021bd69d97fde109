/-
**Notices: what a migration tells its operators.**

* A `Notice` says what happened, with the names that belong to it; `Notice.level` grades it and
  `Notice.text` writes it as one line.
* `Notice.textWith` writes the same line with another way of showing the number of a job.
-/

import TableMigration.Action

namespace TableMigration

/-- How grave a notice is. -/
inductive Level where
  | debug
  | info
  | warn
  | error
  deriving DecidableEq, Inhabited

/-- The name of a level. -/
def Level.name : Level → String
  | .debug => "debug"
  | .info => "info"
  | .warn => "warn"
  | .error => "error"

/-- Something worth telling. -/
inductive Notice where
  /-- The row of a table got a status. -/
  | tableStatus (table : String) (status : Status)
  /-- An action of a task moved on. -/
  | actionMoved (task : String) (action : Action) (was now : Progress)
  /-- An action is handed to an engine. -/
  | dispatched (task : String) (action : Action)
  /-- A worker pool was started. -/
  | poolStarted (pool : String) (workers : Nat)
  /-- A worker pool was stopped. -/
  | poolStopped (pool : String)
  /-- All tables were planned. -/
  | planned (tasks : List String)
  /-- A partitioned table has no partition yet. -/
  | nothingToMove (database table : String)
  /-- A task succeeded, as the task says itself. -/
  | taskSucceeded (task : String)
  /-- A task failed, as the task says itself. -/
  | taskFailed (task : String)
  /-- A task ended, as the scheduler says. -/
  | taskEnded (task : String) (progress : Progress)
  /-- The status of a partition was recorded. -/
  | partitionRecorded (partition table : String) (status : Status)
  /-- The counts of a partition do not agree. -/
  | partitionMismatch (table partition : String)
  /-- A table succeeded. -/
  | tableSucceeded (table : String)
  /-- A table failed. -/
  | tableFailed (table : String)
  /-- A task of the table is the first to fail. -/
  | tableHasFailedTask (database table : String)
  /-- A table can go no further. -/
  | tableStuck (table : String)
  /-- A scheduling run came to its end. -/
  | runFinished (succeeded failed unfinished : Nat)
  /-- A job ended with an error. -/
  | jobFailed (job : Nat) (pool reason : String)
  /-- A job threw. -/
  | jobThrew (job : Nat) (pool reason : String)
  /-- The configuration of a table could not be read. -/
  | configUnknown (table reason : String)
  /-- A table could not be planned. -/
  | planFailed (table reason : String)
  /-- The failure of a table could not be recorded. -/
  | failureUnrecorded (table reason : String)
  /-- The success of a table could not be recorded. -/
  | successUnrecorded (table reason : String)
  /-- The partitions of a task could not be recorded. -/
  | checkpointUnrecorded (partitions : Nat) (task reason : String)
  /-- The mismatched partitions of a task could not be recorded. -/
  | mismatchUnrecorded (task reason : String)
  /-- An action was not accepted by its pool. -/
  | submissionRefused (task : String) (action : Action) (reason : String)
  deriving DecidableEq, Inhabited

namespace Notice

/-- The level of a notice. -/
def level : Notice → Level
  | .tableStatus .. | .actionMoved .. | .dispatched .. | .poolStarted .. | .poolStopped .. =>
    .debug
  | .planned .. | .nothingToMove .. | .taskSucceeded .. | .taskEnded .. | .partitionRecorded ..
  | .tableSucceeded .. | .runFinished .. => .info
  | .taskFailed .. | .partitionMismatch .. | .tableFailed .. | .tableHasFailedTask ..
  | .jobFailed .. => .warn
  | .tableStuck .. | .jobThrew .. | .configUnknown .. | .planFailed .. | .failureUnrecorded ..
  | .successUnrecorded .. | .checkpointUnrecorded .. | .mismatchUnrecorded ..
  | .submissionRefused .. => .error

/-- The line of a notice, with job numbers shown by `jobLabel`. -/
def textWith (jobLabel : Nat → String) : Notice → String
  | .tableStatus table status => s!"Table {table} status -> {status.name}"
  | .actionMoved task action was now =>
    s!"Task {task} action {action.name}: {was.name} -> {now.name}"
  | .dispatched task action =>
    s!"Dispatch task {task} action {action.name} to {action.engine.name}"
  | .poolStarted pool workers => s!"Worker pool {pool} started with {workers} workers"
  | .poolStopped pool => s!"Worker pool {pool} stopped"
  | .planned tasks => "Tasks: " ++ ", ".intercalate tasks
  | .nothingToMove database table =>
    s!"Partitioned table with no partition, db: {database}, tbl: {table}"
  | .taskSucceeded task => s!"Task {task} succeeded"
  | .taskFailed task => s!"Task {task} failed"
  | .taskEnded task progress => s!"Task {task} {progress.name}"
  | .partitionRecorded partition table status =>
    s!"Partition {partition} of {table}: {status.name}"
  | .partitionMismatch table partition =>
    s!"Validation failed, table: {table}, partition: {partition}"
  | .tableSucceeded table => s!"Table {table} succeeded"
  | .tableFailed table => s!"Table {table} failed"
  | .tableHasFailedTask database table => s!"Table {database}.{table} has a failed task"
  | .tableStuck table => s!"Table {table} has no runnable action left"
  | .runFinished succeeded failed unfinished =>
    s!"Scheduling finished, succeeded tables: {succeeded}, failed tables: {failed}, "
      ++ s!"unfinished tables: {unfinished}"
  | .jobFailed job pool reason => s!"Job {jobLabel job} on pool {pool} failed: {reason}"
  | .jobThrew job pool reason => s!"Job {jobLabel job} on pool {pool} threw: {reason}"
  | .configUnknown table reason => s!"Failed to get config of table {table}: {reason}"
  | .planFailed table reason => s!"Failed to plan table {table}: {reason}"
  | .failureUnrecorded table reason => s!"Failed to mark table {table} as failed: {reason}"
  | .successUnrecorded table reason => s!"Failed to update status of table {table}: {reason}"
  | .checkpointUnrecorded partitions task reason =>
    s!"Failed to checkpoint {partitions} partitions of task {task}: {reason}"
  | .mismatchUnrecorded task reason =>
    s!"Failed to record failed partitions of task {task}: {reason}"
  | .submissionRefused task action reason =>
    s!"Failed to submit task {task} action {action.name}: {reason}"

/-- The line of a notice. -/
def text : Notice → String :=
  textWith toString

end Notice

end TableMigration
