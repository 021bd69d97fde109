/-
**Schedulers and what they run on.**

* A `Scheduler` has a pool of workers for each engine and a store of its own. Its engines answer
  through `Engines`, which may do with their state whatever they like.
* `Scheduler.startPools` starts the three pools or says which one could not be started;
  `Scheduler.stopPools` takes back what was started.
* `Grouping.ofTasks` groups tasks by the full name of their table, in the order of the names.
-/

import TableMigration.Pool
import TableMigration.Verification

namespace TableMigration

/-! ### Engines -/

/-- What comes back from the call of an engine. -/
inductive EngineReply where
  | returned (execution : Execution)
  | threw (reason : String)
  deriving DecidableEq

/-- The stores and the engines that a scheduler works with, as functions on a state. -/
structure Engines (σ : Type) where
  backend : Backend σ
  /-- Run an action of a task, which is known by its number. -/
  call : Engine → (number : Nat) → Task → Action → σ → EngineReply × σ

/-- What counts as the result of a call. What is thrown is a failure, and so is a result that leaves
the action unfinished; of such a result nothing is kept. -/
def EngineReply.result : EngineReply → Execution
  | .threw reason => .fail (beforeNull reason)
  | .returned execution =>
    if execution.progress.isTerminal then execution
    else .fail s!"Executor returned non-terminal progress {execution.progress.name}"

/-! ### Jobs -/

/-- How far the job of an action has come. -/
inductive Stage where
  /-- The engine is to be called. -/
  | call
  /-- The counts are to be kept. -/
  | keepCounts (execution : Execution)
  /-- The division of the partitions is to be kept. -/
  | keepValidation (execution : Execution)
  /-- The task is to be told. -/
  | report (execution : Execution)
  /-- What the report called for is to be delivered. -/
  | deliver (execution : Execution) (changed : Option Progress) (deliveries : List Delivery)
  /-- The change of the task is to be announced. -/
  | announce (execution : Execution) (changed : Option Progress)
  /-- The action is to be counted out. -/
  | countOut (execution : Execution)
  /-- The worker is to be set free. -/
  | leave (execution : Execution)
  deriving DecidableEq

/-- The job of running an action of a task. -/
structure Job where
  task : Nat
  action : Action
  stage : Stage
  deriving DecidableEq

/-- A pool for each engine. -/
structure Pools where
  source : Pool Job
  destination : Pool Job
  validation : Pool Job

namespace Pools

/-- The pool of an engine. -/
def get (pools : Pools) : Engine → Pool Job
  | .source => pools.source
  | .destination => pools.destination
  | .validation => pools.validation

/-- Replace the pool of an engine. -/
def set (pools : Pools) (engine : Engine) (pool : Pool Job) : Pools :=
  match engine with
  | .source => { pools with source := pool }
  | .destination => { pools with destination := pool }
  | .validation => { pools with validation := pool }

/-- Pools of these sizes that were never started. -/
def create (sizes : Engine → PoolSize) : Pools where
  source := .create Engine.source.poolName (sizes .source)
  destination := .create Engine.destination.poolName (sizes .destination)
  validation := .create Engine.validation.poolName (sizes .validation)

/-- How many jobs the pools have rejected. -/
def rejected (pools : Pools) : Nat :=
  pools.source.stats.rejected + pools.destination.stats.rejected + pools.validation.stats.rejected

end Pools

/-! ### Schedulers -/

/-- A scheduler between two runs, with what the last run left in it. -/
structure Scheduler where
  store : Option StoreRef
  hasSource : Bool
  hasDestination : Bool
  /-- Whether the final verification compares counts itself and calls no engine. -/
  verifiesItself : Bool
  pools : Pools
  /-- Actions that were counted in and not yet out. -/
  inFlight : Nat
  /-- Actions that were counted out. -/
  completions : Nat
  /-- The full names of the tables that have a failed task. -/
  failedTables : List String

/-- Why a run cannot begin. -/
inductive SchedulerError where
  | enginesMissing
  | poolNotStarted (pool : String) (error : PoolError)
  deriving DecidableEq

/-- The text of an error. -/
def SchedulerError.message : SchedulerError → String
  | .enginesMissing =>
    Failure.what ⟨.invalidArgument, "Source and destination executors are required"⟩
  | .poolNotStarted pool error => s!"Failed to start {pool} pool: {error.message}"

namespace Scheduler

/-- A new scheduler. -/
def create (store : Option StoreRef) (hasSource hasDestination verifiesItself : Bool)
    (sizes : Engine → PoolSize) : Scheduler where
  store := store
  hasSource := hasSource
  hasDestination := hasDestination
  verifiesItself := verifiesItself
  pools := .create sizes
  inFlight := 0
  completions := 0
  failedTables := []

/-- Replace the pool of an engine. -/
def setPool (scheduler : Scheduler) (engine : Engine) (pool : Pool Job) : Scheduler :=
  { scheduler with pools := scheduler.pools.set engine pool }

/-- Start the pools of some engines, up to the first that cannot be started. A pool that is running
is left alone. -/
def startPools (scheduler : Scheduler) :
    List Engine → Scheduler × List Notice × Option SchedulerError
  | [] => (scheduler, [], none)
  | engine :: rest =>
    let pool := scheduler.pools.get engine
    if pool.isRunning then scheduler.startPools rest
    else match pool.start with
      | .error error => (scheduler, [], some (.poolNotStarted pool.name error))
      | .ok started =>
        let (last, notices, error) := (scheduler.setPool engine started).startPools rest
        (last, started.startNotice :: notices, error)

/-- Stop the pools of some engines that have no jobs. -/
def stopPools (scheduler : Scheduler) : List Engine → Scheduler × List Notice
  | [] => (scheduler, [])
  | engine :: rest =>
    match (scheduler.pools.get engine).close.join? with
    | none => scheduler.stopPools rest
    | some stopped =>
      let (last, notices) := (scheduler.setPool engine stopped).stopPools rest
      (last, .poolStopped stopped.name :: notices)

/-- Begin to count anew. -/
def reset (scheduler : Scheduler) : Scheduler :=
  { scheduler with inFlight := 0, completions := 0, failedTables := [] }

end Scheduler

/-! ### Tables of a run -/

/-- The tasks of one table in a run. -/
structure TableGroup where
  database : String
  name : String
  /-- The numbers of the tasks, in the order in which they were listed. -/
  tasks : List Nat
  finished : Bool
  deriving DecidableEq

/-- The full name of the table of a group. -/
def TableGroup.fullName (group : TableGroup) : String :=
  Table.joinNames group.database group.name

/-- The tables of a run under their full names. -/
abbrev Grouping := Keyed TableGroup

namespace Grouping

/-- Add a task to the group of its table. The group takes database and table name from the task that
was added last. -/
def add (tables : Grouping) (number : Nat) (table : Table) : Grouping :=
  let others := ((tables.get? table.fullName).map TableGroup.tasks).getD []
  tables.put table.fullName ⟨table.database, table.name, others ++ [number], false⟩

/-- Group the listed tasks. -/
def ofTasks (tasks : List Task) (listed : List Nat) : Grouping :=
  listed.foldl (fun tables number =>
    match tasks[number]? with
    | some task => tables.add number task.table
    | none => tables) []

/-- The groups that are not finished. -/
def unfinished (tables : Grouping) : List (String × TableGroup) :=
  tables.filter fun entry => !entry.2.finished

end Grouping

/-- What a run reports. -/
structure Report where
  succeeded : List String
  failed : List String
  unfinished : List String
  succeededTasks : Nat
  failedTasks : Nat
  deriving DecidableEq

/-- The report of a run that has just begun. -/
def Report.empty : Report :=
  ⟨[], [], [], 0, 0⟩

end TableMigration
