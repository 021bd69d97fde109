/-
**Tasks.**

* A task moves one table, or some partitions of one, and keeps a `Record` for each of its actions.
* The watermark of a task is the lowest priority among its actions that have not succeeded. An
  action is ready if it is new and its priority is not above the watermark (`Task.isReady`);
  `Task.readyActions` lists the ready ones and stops at the first action above the watermark.
* `Task.update` takes the report of an action and says what follows: the task afterwards, the
  change of its progress if there is one, and the deliveries that the change calls for. A task that
  has succeeded or failed never changes its progress again.
* A `Delivery` tells a listener, or the store if there is no listener, that the task failed, and
  records in the store what became of the partitions.
-/

import TableMigration.Store

namespace TableMigration

/-! ### Records -/

/-- What was found out while an action ran. -/
inductive Findings where
  /-- An action on a source or destination engine reports counts for full table names. -/
  | counts (byTable : Keyed RowCounts)
  /-- A verification may leave a division of the partitions. -/
  | verdict (result : Option Validation)
  deriving DecidableEq

/-- What a task knows about one of its actions. -/
structure Record where
  progress : Progress
  findings : Findings
  deriving DecidableEq

/-- The record of an action that was just added. -/
def Record.fresh (action : Action) : Record :=
  match action.engine with
  | .source | .destination => ⟨.new, .counts []⟩
  | .validation => ⟨.new, .verdict none⟩

/-- Who is told that a task failed, in place of the store. -/
inductive Listener where
  /-- Someone outside. -/
  | observer
  /-- The scheduler that runs the task. -/
  | scheduler
  deriving DecidableEq

/-- A unit of work on one table. -/
structure Task where
  name : String
  table : Table
  config : TableConfig
  /-- Where partitions are recorded, and failures when nobody listens. -/
  store : Option StoreRef
  /-- The status recorded for the matching partitions when the verification has failed. -/
  failureStatus : Status
  listener : Option Listener
  records : Action → Option Record
  progress : Progress

namespace Task

/-- A task without actions. -/
def create (name : String) (table : Table) (config : TableConfig) (store : Option StoreRef)
    (failureStatus : Status) : Task where
  name := name
  table := table
  config := config
  store := store
  failureStatus := failureStatus
  listener := none
  records := fun _ => none
  progress := .new

/-- Replace the record of an action. -/
def setRecord (task : Task) (action : Action) (record : Record) : Task :=
  { task with records := fun other => if other = action then some record else task.records other }

theorem records_setRecord_self (task : Task) (action : Action) (record : Record) :
    (task.setRecord action record).records action = some record := by
  simp [setRecord]

theorem records_setRecord_of_ne (task : Task) {action other : Action} (record : Record)
    (apart : other ≠ action) :
    (task.setRecord action record).records other = task.records other := by
  simp [setRecord, apart]

/-- Add an action that is new, also in place of one that is there. -/
def addAction (task : Task) (action : Action) : Task :=
  task.setRecord action (.fresh action)

/-- Add some actions one after the other. -/
def addActions (task : Task) (actions : List Action) : Task :=
  actions.foldl addAction task

/-- Whether a task has an action. -/
def has (task : Task) (action : Action) : Bool :=
  (task.records action).isSome

/-- The actions of a task in order. -/
def actions (task : Task) : List Action :=
  Action.all.filter task.has

theorem mem_actions {task : Task} {action : Action} :
    action ∈ task.actions ↔ task.has action = true := by
  simp [actions, Action.mem_all]

/-- The progress of an action, if the task has it. -/
def actionProgress (task : Task) (action : Action) : Option Progress :=
  (task.records action).map Record.progress

/-! ### Readiness -/

/-- Whether a task has an action that has not succeeded. -/
def isPending (task : Task) (action : Action) : Bool :=
  match task.actionProgress action with
  | some progress => progress != .succeeded
  | none => false

/-- The lowest priority among the actions that have not succeeded. -/
def watermark (task : Task) : Option Nat :=
  (task.actions.find? task.isPending).map Action.priority

/-- Whether the watermark does not hold an action back. -/
def reaches (task : Task) (action : Action) : Bool :=
  match task.watermark with
  | some lowest => decide (action.priority ≤ lowest)
  | none => true

/-- Whether an action can be dispatched now. -/
def isReady (task : Task) (action : Action) : Bool :=
  task.actionProgress action == some .new && task.reaches action

/-- The actions that can be dispatched now, in order. -/
def readyActions (task : Task) : List Action :=
  (task.actions.takeWhile task.reaches).filter task.isReady

/-! ### Findings -/

/-- Keep the counts that an action reports for a table, in place of earlier ones. Only actions on
source and destination engines keep counts. -/
def keepCounts (task : Task) (action : Action) (table : String) (counts : RowCounts) :
    Option Task :=
  match task.records action with
  | some ⟨progress, .counts byTable⟩ =>
    some (task.setRecord action ⟨progress, .counts (byTable.put table counts)⟩)
  | _ => none

/-- The counts that an action reported for a table. -/
def rowCounts (task : Task) (action : Action) (table : String) : Option RowCounts :=
  match task.records action with
  | some ⟨_, .counts byTable⟩ => byTable.get? table
  | _ => none

/-- Keep the division of the partitions that a verification left. -/
def keepValidation (task : Task) (validation : Validation) : Option Task :=
  match task.records .finalVerification with
  | some ⟨progress, .verdict _⟩ =>
    some (task.setRecord .finalVerification ⟨progress, .verdict (some validation)⟩)
  | _ => none

/-- The division of the partitions that a verification left. -/
def validation (task : Task) : Option Validation :=
  match task.records .finalVerification with
  | some ⟨_, .verdict result⟩ => result
  | _ => none

end Task

/-! ### Reports and what follows from them -/

/-- Something a change of a task calls for outside. -/
inductive Delivery where
  /-- Tell a listener that the task failed. -/
  | signal (listener : Listener)
  /-- Make a write on the store of the task, if it has one. -/
  | write (write : Write)
  deriving DecidableEq

/-- What follows from the report of an action. -/
structure Update where
  task : Task
  /-- The new progress of the task, if it changed. -/
  changed : Option Progress
  notices : List Notice
  deliveries : List Delivery

namespace Task

/-- The progress of a task after one of its actions got a progress. -/
def progressAfter (task : Task) (reported : Progress) : Progress :=
  if task.progress.isTerminal then task.progress
  else match reported with
    | .running => .running
    | .failed => .failed
    | .succeeded => if task.watermark.isNone then .succeeded else task.progress
    | .new => task.progress

/-- The line with which a task tells its end. -/
def endNotices (task : Task) : List Notice :=
  match task.progress with
  | .failed => [.taskFailed task.name]
  | .succeeded => [.taskSucceeded task.name]
  | .new | .running => []

/-- Who has to hear of the failure of a task. -/
def failureDeliveries (task : Task) : List Delivery :=
  if task.progress = .failed then
    match task.listener with
    | some listener => [.signal listener]
    | none => [.write (.failure task.table.database task.table.name)]
  else []

/-- The partitions whose fate is settled by the end of a task, with the status they get. After a
failed verification these are the partitions that matched; those that did not keep the status that
the verification gave them. -/
def checkpoint (task : Task) : Option (Status × List Partition) :=
  if !task.table.isPartitioned then none
  else match task.progress with
    | .succeeded => some (.succeeded, task.table.partitions)
    | .failed =>
      if task.actionProgress .finalVerification = some .failed then
        some (task.failureStatus,
          (task.validation.map Validation.succeeded).getD task.table.partitions)
      else none
    | .new | .running => none

/-- The write that settles the partitions. An empty list would address the row of the table, so
nothing is written for it. -/
def checkpointDeliveries (task : Task) : List Delivery :=
  match task.checkpoint with
  | some (status, partitions) =>
    if partitions.isEmpty then []
    else [.write (.status task.table.database task.table.name partitions status)]
  | none => []

/-- A report that changes nothing. -/
def unchanged (task : Task) : Update :=
  ⟨task, none, [], []⟩

/-- Take the report of an action. The report of an action that the task does not have, that has
this progress already, or that has come to its end is ignored. -/
def update (task : Task) (action : Action) (reported : Progress) : Update :=
  match task.records action with
  | none => task.unchanged
  | some record =>
    if record.progress = reported ∨ record.progress.isTerminal then task.unchanged
    else
      let moved := task.setRecord action { record with progress := reported }
      let notice := Notice.actionMoved task.name action record.progress reported
      let progress := moved.progressAfter reported
      if progress = task.progress then ⟨moved, none, [notice], []⟩
      else
        let after := { moved with progress := progress }
        ⟨after, some progress, notice :: after.endNotices,
          after.failureDeliveries ++ after.checkpointDeliveries⟩

/-- What a task tells about one of its writes. -/
def writeNotices (task : Task) : Write → Outcome Unit → List Notice
  | .failure .., .error reason => [.failureUnrecorded task.table.fullName reason]
  | .failure .., .ok _ => []
  | .status _ _ partitions _, .error reason =>
    [.checkpointUnrecorded partitions.length task.name reason]
  | .status _ _ partitions status, .ok _ =>
    partitions.map fun partition => .partitionRecorded partition.key task.table.fullName status

/-- Make a delivery. Without a store a write comes to nothing, and what the scheduler does with a
signal is its own affair. -/
def deliver {σ : Type} (backend : Backend σ) (task : Task) (delivery : Delivery) (state : σ) :
    List Event × σ :=
  match delivery with
  | .signal .observer => ([.signalled task.table.database task.table.name], state)
  | .signal .scheduler => ([], state)
  | .write write =>
    match task.store with
    | none => ([], state)
    | some store =>
      let (outcome, events, state) := backend.perform store write state
      (events ++ (task.writeNotices write outcome).map .notice, state)

/-- Make deliveries one after the other. -/
def deliverAll {σ : Type} (backend : Backend σ) (task : Task) :
    List Delivery → σ → List Event × σ
  | [], state => ([], state)
  | delivery :: rest, state =>
    let (events, state) := task.deliver backend delivery state
    let (later, state) := task.deliverAll backend rest state
    (events ++ later, state)

end Task

end TableMigration
