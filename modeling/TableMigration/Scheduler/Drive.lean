/-
**One way to make a run go.**

* `Run.drive` lets the workers do all they can before the scheduling thread does its next duty, so
  that a pool refuses a job only where its workers are held back.
* A `Hold` keeps the first calls of an action waiting until some jobs were refused
  (`Hold.keeps`). This shows what a full queue does.
* `Run.budget` is enough for a whole run: every pass but the last follows on the end of an action.
-/

import TableMigration.Scheduler.Run

namespace TableMigration

/-- Calls that are to be held back. -/
structure Hold where
  action : Action
  /-- How many calls are held back. -/
  calls : Nat
  /-- How many jobs have to be refused before the calls go on. -/
  rejections : Nat

/-- Whether a job still waits for the call of an engine for an action. -/
def Job.awaits (job : Job) (action : Action) : Bool :=
  job.action == action && job.stage == .call

/-- Whether a hold keeps a ticket of a pool back: it is among the first calls of the action. -/
def Hold.keeps (hold : Hold) (pool : Pool Job) (ticket : Ticket Job) : Bool :=
  let waiting := pool.running.filter fun other => other.job.awaits hold.action
  (waiting.take hold.calls).any fun other => other.number == ticket.number

namespace Run

variable {σ : Type}

/-- Whether the worker of an engine that has a ticket is held back: not enough jobs were refused,
and the ticket is for a call of an engine that can be held back. -/
def isHeld (run : Run σ) (hold : Option Hold) (engine : Engine) (ticket : Ticket Job) : Bool :=
  let calls := !(engine == .validation && run.scheduler.verifiesItself)
  hold.any fun hold =>
    calls && run.scheduler.pools.rejected < hold.rejections
      && hold.keeps (run.scheduler.pools.get engine) ticket

/-- A move that the workers of an engine can make. -/
def workerMove (run : Run σ) (hold : Option Hold) (engine : Engine) : Option Move :=
  let pool := run.scheduler.pools.get engine
  match pool.running.findIdx? fun ticket => !run.isHeld hold engine ticket with
  | some place => some (.work engine place)
  | none => if pool.take?.isSome then some (.take engine) else none

/-- The next move: one of the workers if they can make any. -/
def nextMove (run : Run σ) (hold : Option Hold) : Move :=
  (Engine.all.findSome? (run.workerMove hold)).getD .advance

/-- Whether nothing can go on before the calls are let go: the scheduling thread has come to wait
for the end of an action, or for a pool, and no action has ended since its pass began. -/
def isStalled (run : Run σ) : Bool :=
  match run.agenda.head? with
  | some .wait => run.scheduler.completions == run.seen
  | some (.join engine) => !(run.scheduler.pools.get engine).isDrained
  | _ => false

/-- Make a run go for at most so many moves. -/
def drive (engines : Engines σ) : (moves : Nat) → Option Hold → Run σ → Run σ
  | 0, _, run => run
  | moves + 1, hold, run =>
    let move := run.nextMove hold
    if move = .advance ∧ run.isStalled = true ∧ hold.isSome = true then
      drive engines moves none run
    else
      match run.step engines move with
      | none => run
      | some next => drive engines moves hold next

/-- How many actions of the tasks are new. -/
def newActions (run : Run σ) : Nat :=
  (run.tasks.flatMap fun task =>
    task.actions.filter fun action => task.actionProgress action == some .new).length

/-- A number of moves that is enough for a run that has just begun. -/
def budget (run : Run σ) : Nat :=
  let actions := run.newActions
  let listed := run.listed.length
  let tables := run.tables.length
  (actions + 3) * (2 * listed + 2 * tables + 5) + 32 * actions + 2 * tables + 32

end Run

/-- What a scheduler makes of some tasks: the report or the reason why there is none, the scheduler
and the tasks afterwards, what could be seen, and the state of the stores and engines. -/
structure RunResult (σ : Type) where
  report : Except SchedulerError Report
  scheduler : Scheduler
  tasks : List Task
  events : List Event
  state : σ

/-- Run some of the tasks. -/
def Scheduler.run {σ : Type} (engines : Engines σ) (scheduler : Scheduler) (tasks : List Task)
    (listed : List Nat) (hold : Option Hold) (state : σ) : RunResult σ :=
  match scheduler.launch tasks listed state with
  | .refused error scheduler notices =>
    ⟨.error error, scheduler, tasks, notices.map .notice, state⟩
  | .started run =>
    let refusedBefore := run.scheduler.pools.rejected
    let hold := hold.map fun hold => { hold with rejections := refusedBefore + hold.rejections }
    let last := run.drive engines run.budget hold
    ⟨.ok last.report, last.scheduler, last.tasks, last.events, last.state⟩

end TableMigration
