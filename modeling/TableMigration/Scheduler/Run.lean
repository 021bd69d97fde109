/-
**A run of a scheduler, move by move.**

* A `Run` is everything there is while tasks are run: the scheduler with its pools, the tasks, the
  groups of tasks by table, the report so far, and the agenda of the scheduling thread.
* The scheduling thread takes one `Duty` after the other from its agenda. In a pass it looks at
  every task of every unfinished table and hands out the actions that are ready; a table is judged
  after its tasks were looked at. A pass ends with a test: if nothing was handed out, nothing is in flight
  and nothing has completed since the pass began, the tables that are left are given up.
* Meanwhile the workers take jobs and carry each of them through its stages. `Run.step` makes one
  move of one of them, so that every order of moves is a way in which a run can go.
-/

import TableMigration.Scheduler

namespace TableMigration

/-! ### Duties -/

/-- What the scheduling thread has to do. -/
inductive Duty where
  /-- Note how many actions have completed, and look at all unfinished tables. -/
  | beginPass
  /-- Look at a task, unless it has come to its end. -/
  | look (task : Nat)
  /-- Hand out the actions of a task that are ready. -/
  | collect (task : Nat)
  /-- Mark an action as running. -/
  | dispatch (task : Nat) (action : Action)
  /-- Count an action in. -/
  | countIn
  /-- Give an action to the pool of its engine. -/
  | submit (task : Nat) (action : Action)
  /-- Mark an action as failed that its pool has refused. -/
  | refuse (task : Nat) (action : Action)
  /-- Deliver what a change of a task called for. -/
  | deliver (task : Nat) (delivery : Delivery)
  /-- Announce that a task has come to its end. -/
  | announce (task : Nat) (progress : Progress)
  /-- Count an action out that its pool has refused. -/
  | countOut
  /-- Finish a table if all its tasks have come to their end. -/
  | judge (table : String)
  /-- See whether there is anything left to wait for. -/
  | test
  /-- Report a table that can go no further. -/
  | giveUp (table : String)
  /-- Wait for an action to complete, though not for ever. -/
  | wait
  /-- Let the pool of an engine accept no more jobs. -/
  | close (engine : Engine)
  /-- Wait until the pool of an engine has run its jobs. -/
  | join (engine : Engine)
  /-- Listen to the tasks no more. -/
  | unlisten
  /-- Tell that the run has come to its end. -/
  | conclude
  deriving DecidableEq

/-- What there is to do once the last table was dealt with. -/
def Duty.closing : List Duty :=
  Engine.all.flatMap (fun engine => [.close engine, .join engine]) ++ [.unlisten, .conclude]

/-- What there is to do in one pass. -/
def Duty.pass (tables : Grouping) : List Duty :=
  tables.unfinished.flatMap (fun entry => entry.2.tasks.map .look ++ [.judge entry.1]) ++ [.test]

/-- What there is to do once a task was told the progress of an action. -/
def Duty.follow (task : Nat) (changed : Option Progress) (deliveries : List Delivery) : List Duty :=
  deliveries.map (Duty.deliver task) ++ changed.toList.map (Duty.announce task)

/-! ### Runs -/

/-- A run, between two moves. -/
structure Run (σ : Type) where
  scheduler : Scheduler
  tasks : List Task
  /-- The numbers of the tasks that are run. A number may be listed several times. -/
  listed : List Nat
  tables : Grouping
  report : Report
  /-- How many actions had completed when the pass began. -/
  seen : Nat
  /-- How many actions were handed out in the pass. -/
  dispatched : Nat
  /-- What the scheduling thread has yet to do. -/
  agenda : List Duty
  events : List Event
  /-- The state of the stores and engines. -/
  state : σ

namespace Run

variable {σ : Type}

/-- Note something that can be seen from outside. -/
def emit (run : Run σ) (events : List Event) : Run σ :=
  { run with events := run.events ++ events }

/-- Tell something to the operators. -/
def tell (run : Run σ) (notices : List Notice) : Run σ :=
  run.emit (notices.map .notice)

/-- Put duties in front of the agenda. -/
def plan (run : Run σ) (duties : List Duty) : Run σ :=
  { run with agenda := duties ++ run.agenda }

/-- Replace a task. -/
def setTask (run : Run σ) (number : Nat) (task : Task) : Run σ :=
  { run with tasks := run.tasks.set number task }

/-- Replace a pool. -/
def setPool (run : Run σ) (engine : Engine) (pool : Pool Job) : Run σ :=
  { run with scheduler := run.scheduler.setPool engine pool }

/-- Whether a task has come to its end. -/
def isEnded (run : Run σ) (number : Nat) : Bool :=
  (run.tasks[number]?).all fun task => task.progress.isTerminal

/-- Whether a task has failed. -/
def hasFailed (run : Run σ) (number : Nat) : Bool :=
  (run.tasks[number]?).any fun task => task.progress == .failed

/-! ### Reports of actions -/

/-- Tell a task the progress of one of its actions. -/
def reportProgress (run : Run σ) (number : Nat) (action : Action) (progress : Progress) :
    Run σ × Option Progress × List Delivery :=
  match run.tasks[number]? with
  | none => (run, none, [])
  | some task =>
    let update := task.update action progress
    ((run.setTask number update.task).tell update.notices, update.changed, update.deliveries)

/-- Note that a table has a failed task, and tell so the first time. -/
def noteFailure (run : Run σ) (table : Table) : Run σ :=
  if run.scheduler.failedTables.contains table.fullName then run
  else
    let names := run.scheduler.failedTables ++ [table.fullName]
    { run with scheduler := { run.scheduler with failedTables := names } }.tell
      [.tableHasFailedTask table.database table.name]

/-- Make a delivery that a change of a task called for. The scheduler itself listens to the tasks
that it runs. -/
def deliver (engines : Engines σ) (run : Run σ) (number : Nat) (delivery : Delivery) : Run σ :=
  match run.tasks[number]? with
  | none => run
  | some task =>
    let (events, state) := task.deliver engines.backend delivery run.state
    let after := { run with state := state }.emit events
    if delivery = .signal .scheduler then after.noteFailure task.table else after

/-- Announce that a task has come to its end. -/
def announce (run : Run σ) (number : Nat) (changed : Option Progress) : Run σ :=
  match run.tasks[number]?, changed with
  | some task, some progress =>
    if progress.isTerminal then run.tell [.taskEnded task.name progress] else run
  | _, _ => run

/-- Count an action in. -/
def countIn (run : Run σ) : Run σ :=
  { run with scheduler := { run.scheduler with inFlight := run.scheduler.inFlight + 1 } }

/-- Count an action out. -/
def countOut (run : Run σ) : Run σ :=
  { run with scheduler := { run.scheduler with
      inFlight := run.scheduler.inFlight - 1
      completions := run.scheduler.completions + 1 } }

/-! ### Tables -/

/-- Whether a table counts as failed. -/
def tableFailed (run : Run σ) (group : TableGroup) : Bool :=
  group.tasks.any run.hasFailed || run.scheduler.failedTables.contains group.fullName

/-- Make a write on the store of the scheduler, if it has one. A store that refuses is only
reported. -/
def write (engines : Engines σ) (run : Run σ) (write : Write) (refused : String → Notice) : Run σ :=
  match run.scheduler.store with
  | none => run
  | some store =>
    let (outcome, events, state) := engines.backend.perform store write run.state
    let after := { run with state := state }.emit events
    match outcome with
    | .ok _ => after
    | .error reason => after.tell [refused reason]

/-- Record a failed attempt of a table. -/
def recordFailure (engines : Engines σ) (run : Run σ) (group : TableGroup) : Run σ :=
  run.write engines (.failure group.database group.name) (.failureUnrecorded group.fullName)

/-- Record and report the end of a table. -/
def finishTable (engines : Engines σ) (run : Run σ) (key : String) (group : TableGroup) : Run σ :=
  let failed := (group.tasks.filter run.hasFailed).length
  let report := { run.report with
    failedTasks := run.report.failedTasks + failed
    succeededTasks := run.report.succeededTasks + (group.tasks.length - failed) }
  let run := { run with
    tables := run.tables.put key { group with finished := true }
    report := report }
  if run.tableFailed group then
    let run := (run.tell [.tableFailed group.fullName]).recordFailure engines group
    { run with report := { run.report with failed := run.report.failed ++ [group.fullName] } }
  else
    let write := Write.status group.database group.name [] .succeeded
    let run := (run.write engines write (.successUnrecorded group.fullName)).tell
      [.tableSucceeded group.fullName]
    { run with report := { run.report with succeeded := run.report.succeeded ++ [group.fullName] } }

/-- Report a table that can go no further. -/
def giveUp (engines : Engines σ) (run : Run σ) (key : String) (group : TableGroup) : Run σ :=
  let run := run.tell [.tableStuck key]
  let run := { run with
    report := { run.report with unfinished := run.report.unfinished ++ [key] } }
  if run.tableFailed group then run.recordFailure engines group else run

/-! ### Moves of the scheduling thread -/

/-- Do a duty that was taken from the agenda. Only waiting for a pool may have to be put off. -/
def perform (engines : Engines σ) (run : Run σ) : Duty → Option (Run σ)
  | .beginPass =>
    some <| { run with seen := run.scheduler.completions, dispatched := 0 }.plan
      (Duty.pass run.tables)
  | .look task => some <| if run.isEnded task then run else run.plan [.collect task]
  | .collect number => some <|
    match run.tasks[number]? with
    | none => run
    | some task => run.plan (task.readyActions.map (.dispatch number))
  | .dispatch number action => some <|
    match run.tasks[number]? with
    | none => run
    | some task =>
      let (after, changed, deliveries) :=
        (run.tell [.dispatched task.name action]).reportProgress number action .running
      { after with dispatched := after.dispatched + 1 }.plan
        (Duty.follow number changed deliveries ++ [Duty.countIn, Duty.submit number action])
  | .countIn => some run.countIn
  | .submit number action => some <|
    match run.tasks[number]? with
    | none => run
    | some task =>
      let submission := (run.scheduler.pools.get action.engine).submit action.priority
        ⟨number, action, .call⟩
      let after := run.setPool action.engine submission.pool
      match submission.refusal with
      | none => after
      | some error =>
        (after.tell [.submissionRefused task.name action error.message]).plan
          [.refuse number action, .countOut]
  | .refuse number action =>
    let (after, changed, deliveries) := run.reportProgress number action .failed
    some <| after.plan (Duty.follow number changed deliveries)
  | .deliver number delivery => some <| run.deliver engines number delivery
  | .announce number progress => some <| run.announce number (some progress)
  | .countOut => some run.countOut
  | .judge key => some <|
    match run.tables.get? key with
    | none => run
    | some group => if group.tasks.all run.isEnded then run.finishTable engines key group else run
  | .test => some <|
    if run.tables.unfinished.isEmpty then run.plan Duty.closing
    else if run.dispatched = 0 ∧ run.scheduler.inFlight = 0
        ∧ run.scheduler.completions = run.seen then
      run.plan (run.tables.unfinished.map (fun entry => .giveUp entry.1) ++ Duty.closing)
    else run.plan [.wait]
  | .giveUp key => some <|
    match run.tables.get? key with
    | none => run
    | some group => run.giveUp engines key group
  | .wait => some <| run.plan [.beginPass]
  | .close engine => some <| run.setPool engine (run.scheduler.pools.get engine).close
  | .join engine =>
    ((run.scheduler.pools.get engine).join?).map fun stopped =>
      (run.setPool engine stopped).tell [.poolStopped stopped.name]
  | .unlisten =>
    let deafen (tasks : List Task) (number : Nat) : List Task :=
      tasks.modify number fun task => { task with listener := none }
    some { run with tasks := run.listed.foldl deafen run.tasks }
  | .conclude => some <| run.tell [.runFinished run.report.succeeded.length
      run.report.failed.length run.report.unfinished.length]

/-- The scheduling thread does its next duty. -/
def advance (engines : Engines σ) (run : Run σ) : Option (Run σ) :=
  match run.agenda with
  | [] => none
  | duty :: rest => { run with agenda := rest }.perform engines duty

/-! ### Moves of the workers -/

/-- Call the engine of an action, or compare counts where the scheduler does so itself. -/
def callEngine (engines : Engines σ) (run : Run σ) (number : Nat) (task : Task) (action : Action) :
    Execution × Run σ :=
  if action.engine = .validation ∧ run.scheduler.verifiesItself then
    let (execution, events, state) :=
      task.verify engines.backend run.scheduler.store action run.state
    (execution, { run with state := state }.emit (events ++ [Event.verified number execution]))
  else
    let (reply, state) := engines.call action.engine number task action run.state
    let execution := reply.result
    (execution,
      { run with state := state }.emit [.called action.engine number action execution])

/-- Let a task keep the counts of a result. -/
def keepCounts (run : Run σ) (number : Nat) (action : Action) (execution : Execution) : Run σ :=
  match run.tasks[number]?, execution.counts with
  | some task, some counts =>
    match task.keepCounts action task.table.fullName counts with
    | some kept => run.setTask number kept
    | none => run
  | _, _ => run

/-- Let a task keep the division of its partitions. -/
def keepValidation (run : Run σ) (number : Nat) (execution : Execution) : Run σ :=
  match run.tasks[number]?, execution.validation with
  | some task, some validation =>
    match task.keepValidation validation with
    | some kept => run.setTask number kept
    | none => run
  | _, _ => run

/-- How the job of an action ends. -/
def jobEnd (task : Task) (action : Action) (execution : Execution) : JobEnd :=
  if execution.progress = .failed then
    .failed s!"Task {task.name} action {action.name} failed: {execution.message}"
  else .completed

/-- Carry the job at a place among those that the workers of an engine have one stage further. -/
def work (engines : Engines σ) (run : Run σ) (engine : Engine) (place : Nat) : Option (Run σ) :=
  match (run.scheduler.pools.get engine).running[place]? with
  | none => none
  | some ⟨number, _, ⟨taskNumber, action, stage⟩⟩ =>
    let goOn (run : Run σ) (stage : Stage) : Run σ :=
      run.setPool engine ((run.scheduler.pools.get engine).amend place ⟨taskNumber, action, stage⟩)
    match run.tasks[taskNumber]? with
    | none => none
    | some task => some <|
      match stage with
      | .call =>
        let (execution, after) := run.callEngine engines taskNumber task action
        goOn after (.keepCounts execution)
      | .keepCounts execution =>
        goOn (run.keepCounts taskNumber action execution) (.keepValidation execution)
      | .keepValidation execution =>
        goOn (run.keepValidation taskNumber execution) (.report execution)
      | .report execution =>
        let (after, changed, deliveries) := run.reportProgress taskNumber action execution.progress
        goOn after (.deliver execution changed deliveries)
      | .deliver execution changed [] => goOn run (.announce execution changed)
      | .deliver execution changed (delivery :: rest) =>
        goOn (run.deliver engines taskNumber delivery) (.deliver execution changed rest)
      | .announce execution changed =>
        goOn (run.announce taskNumber changed) (.countOut execution)
      | .countOut execution => goOn run.countOut (.leave execution)
      | .leave execution =>
        let pool := run.scheduler.pools.get engine
        let ending := jobEnd task action execution
        (run.setPool engine (pool.finish place ending)).tell (pool.endNotices number ending)

/-- A free worker takes a job. -/
def takeJob (run : Run σ) (engine : Engine) : Option (Run σ) :=
  ((run.scheduler.pools.get engine).take?).map fun (_, pool) => run.setPool engine pool

/-! ### Moves -/

/-- Whose turn it is. -/
inductive Move where
  /-- The scheduling thread does its next duty. -/
  | advance
  /-- A free worker of an engine takes a job. -/
  | take (engine : Engine)
  /-- The worker of an engine that has the job at this place goes on with it. -/
  | work (engine : Engine) (place : Nat)
  deriving DecidableEq

/-- Make a move, if it can be made. -/
def step (engines : Engines σ) (run : Run σ) : Move → Option (Run σ)
  | .advance => run.advance engines
  | .take engine => run.takeJob engine
  | .work engine place => run.work engines engine place

/-- Make moves one after the other. -/
def steps (engines : Engines σ) (run : Run σ) : List Move → Option (Run σ)
  | [] => some run
  | move :: rest => (run.step engines move).bind fun next => next.steps engines rest

/-- Whether the scheduling thread has nothing more to do. -/
def isOver (run : Run σ) : Bool :=
  run.agenda.isEmpty

end Run

/-! ### The beginning of a run -/

/-- What comes of asking a scheduler for a run. -/
inductive Launch (σ : Type) where
  /-- The run can go on from here. -/
  | started (run : Run σ)
  /-- There is no run. The scheduler stays, and its pools have told something. -/
  | refused (error : SchedulerError) (scheduler : Scheduler) (notices : List Notice)

/-- Listen to a task. -/
def Task.listenTo (tasks : List Task) (number : Nat) : List Task :=
  tasks.modify number fun task => { task with listener := some .scheduler }

/-- Begin to run some of the tasks. -/
def Scheduler.launch {σ : Type} (scheduler : Scheduler) (tasks : List Task) (listed : List Nat)
    (state : σ) : Launch σ :=
  if !(scheduler.hasSource && scheduler.hasDestination) then
    .refused .enginesMissing scheduler []
  else
    match scheduler.startPools Engine.all with
    | (halfway, notices, some error) =>
      let (stopped, more) := halfway.stopPools Engine.all
      .refused error stopped (notices ++ more)
    | (ready, notices, none) =>
      let tables := Grouping.ofTasks tasks listed
      .started {
        scheduler := ready.reset
        tasks := listed.foldl Task.listenTo tasks
        listed := listed
        tables := tables
        report := .empty
        seen := 0
        dispatched := 0
        agenda := if tables.isEmpty then Duty.closing else [.beginPass]
        events := notices.map .notice
        state := state }

end TableMigration
