/-
**Sessions: migrations under command.**

* A `Session` has one store, a list of tasks, and at most one planner and one scheduler at a time.
  Planners, tasks and schedulers use the store unless they are made without one.
* `Session.step` carries out one `Command`. It gives the session afterwards, an `Answer`, and the
  events that could be seen.
* Commands on rows go to the memory directly: no fault stops them, and they are no calls on the
  store.
-/

import TableMigration.Planner
import TableMigration.Scheduler.Drive
import TableMigration.Scheduler.Rules
import TableMigration.Store.Faulty

namespace TableMigration

/-! ### Commands -/

namespace Session

/-- Commands on the rows of the store. -/
inductive StoreCommand where
  | addTable (table : Table) (config : TableConfig)
  | setConfig (database table : String) (config : TableConfig)
  | write (write : Write)
  | config (database table : String)
  | tableStatus (database table : String)
  | partitionStatus (database table : String) (partition : Partition)
  | attempts (database table : String)
  | partitionsToMigrate (table : Table)
  | retryLimit
  | setFault (sort : CallSort) (fault : Option String)

/-- Commands on planners. -/
inductive PlanCommand where
  /-- Make a planner, with a seed for its tokens or without. -/
  | create (seed : Option UInt32) (failureStatus : Status) (hasStore : Bool)
  | plan (tables : List Table) (actions : List Action)
  | planTable (table : Table) (config : TableConfig) (actions : List Action)

/-- Commands on the task of a number. -/
inductive TaskCommand where
  | info
  | state
  | addAction (action : Action)
  | hasAction (action : Action)
  | isReady (action : Action)
  | readyActions
  | actionProgress (action : Action)
  | update (action : Action) (progress : Progress)
  | setCounts (action : Action) (table : String) (counts : RowCounts)
  | counts (action : Action) (table : String)
  | setValidation (validation : Validation)
  | validation
  /-- Let an observer listen to the task, or nobody. -/
  | observe (on : Bool)
  | validatePartitions
  | validateTable
  | verify (action : Action) (hasStore : Bool)

/-- Commands on schedulers. -/
inductive RunCommand where
  | create (sizes : Engine → PoolSize) (hasSource hasDestination verifiesItself : Bool)
      (hasStore : Bool)
  | run (listed : List Nat) (rules : List Rule) (hold : Option Hold)

/-- What a session can be asked for. -/
inductive Command where
  | store (command : StoreCommand)
  | planner (command : PlanCommand)
  /-- Make a task and add actions to it. -/
  | newTask (name : String) (table : Table) (config : TableConfig) (actions : List Action)
      (failureStatus : Status) (hasStore : Bool)
  | task (number : Nat) (command : TaskCommand)
  | scheduler (command : RunCommand)

/-- What a command answers. -/
inductive Answer where
  | nothing
  | done
  | refused (message : String)
  | flag (value : Bool)
  | number (value : Int)
  | config (config : TableConfig)
  | status (status : Status)
  | partitions (partitions : List Partition)
  /-- Tasks that were made. -/
  | tasks (tasks : List Task)
  /-- A task that was made. -/
  | task (task : Task)
  /-- What never changes of a task. -/
  | info (task : Task)
  /-- What changes of a task. -/
  | state (task : Task)
  | actions (actions : List Action)
  | progress (progress : Option Progress)
  /-- What the report of an action has changed. -/
  | update (changed : Option Progress) (task : Task) (action : Action)
  | counts (counts : Option RowCounts)
  | validation (validation : Option Validation)
  | execution (execution : Execution)
  /-- The report of a run, the calls of engines with the names of the tasks, and the tasks. -/
  | run (report : Report) (calls : List (Engine × String × Action)) (tasks : List Task)

/-- The answer of an operation that only succeeds or fails. -/
def Answer.ofOutcome : Outcome Unit → Answer
  | .ok _ => .done
  | .error message => .refused message

/-- The answer of an operation on the rows that reads something. -/
def Answer.ofRead {α : Type} (answer : α → Answer) : Except StoreError α → Answer
  | .ok value => answer value
  | .error error => .refused error.message

end Session

/-! ### Sessions -/

/-- Everything a session remembers from one command to the next. -/
structure Session where
  store : FaultyStore
  tasks : List Task
  planner : Option (Planner × TokenSource)
  scheduler : Option Scheduler

namespace Session

/-- What a command leads to. -/
structure Step where
  session : Session
  answer : Answer
  events : List Event

/-- The only store of a session. -/
def storeRef : StoreRef := 0

/-- The store, for those that are made with one. -/
def storeIf (hasStore : Bool) : Option StoreRef :=
  if hasStore then some storeRef else none

/-- A session that has just begun. -/
def create (retryLimit : Int) : Session :=
  ⟨.create retryLimit, [], none, none⟩

/-- An answer that leaves the session as it is. -/
def answer (session : Session) (answer : Answer) : Step :=
  ⟨session, answer, []⟩

/-- Replace the memory if an operation on it has succeeded. -/
def setMemory (session : Session) : Except StoreError Memory → Step
  | .ok memory => ⟨{ session with store := { session.store with memory := memory } }, .done, []⟩
  | .error error => session.answer (.refused error.message)

/-- Carry out a command on the rows of the store. -/
def stepStore (session : Session) : StoreCommand → Step
  | .addTable table config => session.setMemory (session.store.memory.addTable table config)
  | .setConfig database table config =>
    session.setMemory (session.store.memory.setConfig database table config)
  | .write write =>
    let (reply, store) := session.store.write write
    ⟨{ session with store := store }, .ofOutcome reply.outcome, reply.notices.map .notice⟩
  | .config database table =>
    session.answer (.ofRead .config (session.store.memory.config database table))
  | .tableStatus database table =>
    session.answer (.ofRead .status (session.store.memory.tableStatus database table))
  | .partitionStatus database table partition =>
    session.answer
      (.ofRead .status (session.store.memory.partitionStatus database table partition))
  | .attempts database table =>
    session.answer
      (.ofRead (fun count => .number count) (session.store.memory.attempts database table))
  | .partitionsToMigrate table =>
    session.answer (.ofRead .partitions (session.store.memory.partitionsToMigrate table))
  | .retryLimit => session.answer (.number session.store.memory.retryLimit)
  | .setFault sort fault =>
    ⟨{ session with store := session.store.setFault sort fault }, .nothing, []⟩

/-- Carry out a command on the planner. -/
def stepPlanner (session : Session) : PlanCommand → Step
  | .create seed failureStatus hasStore =>
    let tokens := match seed with
      | some word => .seeded (.seed word)
      | none => .chance
    ⟨{ session with planner := some (⟨storeIf hasStore, failureStatus⟩, tokens) }, .nothing, []⟩
  | .plan tables actions =>
    match session.planner with
    | none => session.answer .nothing
    | some (planner, tokens) =>
      match planner.plan FaultyStore.backend tables actions tokens session.store with
      | .error error => session.answer (.refused error.message)
      | .ok planned =>
        ⟨{ session with
            store := planned.state
            tasks := session.tasks ++ planned.tasks
            planner := some (planner, planned.tokens) },
          .tasks planned.tasks, planned.events⟩
  | .planTable table config actions =>
    match session.planner with
    | none => session.answer .nothing
    | some (planner, tokens) =>
      let plan := planner.planTable table config actions tokens
      let planner := some (planner, plan.tokens)
      match plan.tasks with
      | .error error =>
        ⟨{ session with planner := planner }, .refused error.message,
          plan.notices.map .notice⟩
      | .ok tasks =>
        ⟨{ session with tasks := session.tasks ++ tasks, planner := planner }, .tasks tasks,
          plan.notices.map .notice⟩

/-- Replace a task and give an answer. -/
def setTask (session : Session) (number : Nat) (task : Task) (answer : Answer) : Step :=
  ⟨{ session with tasks := session.tasks.set number task }, answer, []⟩

/-- Replace a task if it has kept something, and say whether it has. -/
def keep (session : Session) (number : Nat) : Option Task → Step
  | some task => session.setTask number task (.flag true)
  | none => session.answer (.flag false)

/-- Carry out a command on a task. -/
def stepTask (session : Session) (number : Nat) (task : Task) : TaskCommand → Step
  | .info => session.answer (.info task)
  | .state => session.answer (.state task)
  | .addAction action =>
    let task := task.addAction action
    session.setTask number task (.state task)
  | .hasAction action => session.answer (.flag (task.has action))
  | .isReady action => session.answer (.flag (task.isReady action))
  | .readyActions => session.answer (.actions task.readyActions)
  | .actionProgress action => session.answer (.progress (task.actionProgress action))
  | .update action progress =>
    let update := task.update action progress
    let (events, store) :=
      update.task.deliverAll FaultyStore.backend update.deliveries session.store
    ⟨{ session with store := store, tasks := session.tasks.set number update.task },
      .update update.changed update.task action, update.notices.map .notice ++ events⟩
  | .setCounts action table counts => session.keep number (task.keepCounts action table counts)
  | .counts action table => session.answer (.counts (task.rowCounts action table))
  | .setValidation validation => session.keep number (task.keepValidation validation)
  | .validation => session.answer (.validation task.validation)
  | .observe on =>
    let listener := if on then some .observer else none
    session.setTask number { task with listener := listener } .nothing
  | .validatePartitions =>
    ⟨session, .validation (some task.validatePartitions), task.mismatchNotices.map .notice⟩
  | .validateTable => session.answer (.flag task.validateTable)
  | .verify action hasStore =>
    let (execution, events, store) :=
      task.verify FaultyStore.backend (storeIf hasStore) action session.store
    ⟨{ session with store := store }, .execution execution, events⟩

/-- The call of an engine that an event tells of. -/
def callOf (tasks : List Task) : Event → Option (Engine × String × Action)
  | .called engine number action _ =>
    (tasks[number]?).map fun task => (engine, task.name, action)
  | _ => none

/-- Carry out a command on the scheduler. -/
def stepScheduler (session : Session) : RunCommand → Step
  | .create sizes hasSource hasDestination verifiesItself hasStore =>
    let scheduler :=
      Scheduler.create (storeIf hasStore) hasSource hasDestination verifiesItself sizes
    ⟨{ session with scheduler := some scheduler }, .nothing, []⟩
  | .run listed rules hold =>
    match session.scheduler with
    | none => session.answer .nothing
    | some scheduler =>
      let engines := Rules.engines FaultyStore.backend rules
      let result := scheduler.run engines session.tasks listed hold session.store
      let session := { session with
        store := result.state
        tasks := result.tasks
        scheduler := some result.scheduler }
      let answer := match result.report with
        | .error error => .refused error.message
        | .ok report =>
          .run report (result.events.filterMap (callOf result.tasks))
            (listed.filterMap fun number => result.tasks[number]?)
      ⟨session, answer, result.events⟩

/-- Carry out a command. A task that does not exist answers nothing. -/
def step (session : Session) : Command → Step
  | .store command => session.stepStore command
  | .planner command => session.stepPlanner command
  | .newTask name table config actions failureStatus hasStore =>
    let task := (Task.create name table config (storeIf hasStore) failureStatus).addActions actions
    ⟨{ session with tasks := session.tasks ++ [task] }, .task task, []⟩
  | .task number command =>
    match session.tasks[number]? with
    | some task => session.stepTask number task command
    | none => session.answer .nothing
  | .scheduler command => session.stepScheduler command

/-- Carry out commands one after the other. -/
def play (session : Session) : List Command → List (Answer × List Event)
  | [] => []
  | command :: rest =>
    let next := session.step command
    (next.answer, next.events) :: next.session.play rest

end Session

end TableMigration
