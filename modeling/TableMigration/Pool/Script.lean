/-
**Scripted pools.**

* A script drives one pool from outside: it submits jobs whose course is known beforehand, holds
  workers back and releases them, and reads the counts.
* A job may submit another one while it runs (`Errand`). After every command the workers that are
  not held run all jobs that wait (`Script.work`), one job after the other.
-/

import TableMigration.Outcome
import TableMigration.Pool

namespace TableMigration

namespace Script

/-! ### Jobs -/

/-- A job of known course. -/
structure Chore where
  label : String
  priority : Nat
  ending : JobEnd

/-- What a worker is asked to do. -/
inductive Errand where
  /-- Wait until the script releases the worker. -/
  | wait
  /-- Submit the first of the later chores together with the others, if there is one, and then do
  the chore. -/
  | run (chore : Chore) (later : List Chore)

/-- How many jobs an errand will have brought about in the end. -/
def Errand.weight : Errand → Nat
  | .wait => 1
  | .run _ later => later.length + 1

/-- A job that ran, with what became of the one that it submitted. -/
structure Ran where
  label : String
  submission : Option (Except PoolError Unit)

/-- What happened during a command. -/
structure Trail where
  ran : List Ran
  notices : List Notice

/-- Nothing happened. -/
def Trail.none : Trail :=
  ⟨[], []⟩

/-- One trail after another. -/
def Trail.append (first second : Trail) : Trail :=
  ⟨first.ran ++ second.ran, first.notices ++ second.notices⟩

/-! ### Workers -/

/-- Whether a submission was accepted. -/
def accepted (submission : Submission Errand) : Except PoolError Unit :=
  match submission.refusal with
  | some error => .error error
  | none => .ok ()

/-- Do the chore of the ticket that was taken last: submit what it submits, and end. -/
def perform (pool : Pool Errand) (number : Nat) (chore : Chore) (later : List Chore) :
    Pool Errand × Trail :=
  let place := pool.running.length - 1
  match later with
  | [] =>
    (pool.finish place chore.ending,
      ⟨[⟨chore.label, .none⟩], pool.endNotices number chore.ending⟩)
  | child :: rest =>
    let submission := pool.submit child.priority (.run child rest)
    (submission.pool.finish place chore.ending,
      ⟨[⟨chore.label, some (accepted submission)⟩], pool.endNotices number chore.ending⟩)

/-- Let a free worker take jobs, one after the other, for at most so many jobs. A worker that takes
a waiting errand is held. -/
def workFor : Nat → Pool Errand → Pool Errand × Trail
  | 0, pool => (pool, .none)
  | more + 1, pool =>
    match pool.take? with
    | none => (pool, .none)
    | some (ticket, taken) =>
      match ticket.job with
      | .wait => workFor more taken
      | .run chore later =>
        let (done, trail) := perform taken ticket.number chore later
        let (last, rest) := workFor more done
        (last, trail.append rest)

/-- Let the free workers run all jobs that wait, and those that these submit. -/
def work (pool : Pool Errand) : Pool Errand × Trail :=
  workFor (pool.queue.foldl (fun errands ticket => errands + ticket.job.weight) 0) pool

/-- Let go of all held workers. Those are all workers that have a ticket between two commands. -/
def letGo (pool : Pool Errand) : Pool Errand :=
  pool.running.foldl (fun pool _ => pool.finish 0 .completed) pool

/-- Let go of all held workers and run all jobs that wait. -/
def drain (pool : Pool Errand) : Pool Errand × Trail :=
  work (letGo pool)

/-- End a pool that was closed, once its jobs have run. -/
def settle (pool : Pool Errand) : Pool Errand × Trail :=
  let (drained, trail) := drain pool
  match drained.join? with
  | some joined => (joined, trail.append ⟨[], [.poolStopped pool.name]⟩)
  | none => (drained, trail)

/-! ### Commands -/

/-- What a script can ask for. -/
inductive Command where
  | start
  | shutdown
  | submit (chore : Chore) (later : List Chore)
  /-- Hold a worker back. -/
  | hold
  /-- Release all workers that are held. -/
  | release
  /-- Close the pool while the held workers stay held. -/
  | beginShutdown
  /-- Release the workers and wait for the end of the pool. -/
  | finishShutdown
  | stats
  | queueSize
  | isRunning
  | info

/-- What a command answers. -/
inductive Answer where
  | nothing
  | done
  | refused (error : PoolError)
  | flag (value : Bool)
  | number (value : Nat)
  | stats (stats : PoolStats) (queueSize : Nat)
  | info (name : String) (size : PoolSize)

/-- The answer to something that may be refused. -/
def Answer.ofExcept : Except PoolError Unit → Answer
  | .ok _ => .done
  | .error error => .refused error

/-- Submit an errand and let the free workers run. -/
def submit (pool : Pool Errand) (priority : Nat) (errand : Errand) : Pool Errand × Answer × Trail :=
  let submission := pool.submit priority errand
  let (worked, trail) := work submission.pool
  (worked, .ofExcept (accepted submission), trail)

/-- Carry out a command. -/
def step (pool : Pool Errand) : Command → Pool Errand × Answer × Trail
  | .start =>
    match pool.start with
    | .ok started => (started, .done, ⟨[], [started.startNotice]⟩)
    | .error error => (pool, .refused error, .none)
  | .shutdown =>
    if pool.isRunning then
      let (stopped, trail) := settle pool.close
      (stopped, .done, trail)
    else (pool, .done, .none)
  | .submit chore later => submit pool chore.priority (.run chore later)
  | .hold => submit pool 0 .wait
  | .release =>
    let (drained, trail) := drain pool
    (drained, .done, trail)
  | .beginShutdown => (pool.close, .nothing, .none)
  | .finishShutdown =>
    let (stopped, trail) := settle pool
    (stopped, .done, trail)
  | .stats => (pool, .stats pool.stats pool.queue.length, .none)
  | .queueSize => (pool, .number pool.queue.length, .none)
  | .isRunning => (pool, .flag pool.isRunning, .none)
  | .info => (pool, .info pool.name pool.size, .none)

/-- Carry out commands one after the other. -/
def runAll : Pool Errand → List Command → List (Answer × Trail) × Pool Errand
  | pool, [] => ([], pool)
  | pool, command :: rest =>
    let (next, answer, trail) := step pool command
    let (later, last) := runAll next rest
    ((answer, trail) :: later, last)

/-- Carry out a script on a new pool. In the end the workers are released, and the last answer is
the counts. -/
def play (name : String) (size : PoolSize) (commands : List Command) :
    List (Answer × Trail) × (Answer × Trail) :=
  let (answers, pool) := runAll (Pool.create name size) commands
  let (last, trail) := settle pool
  (answers, (.stats last.stats last.queue.length, trail))

end Script

end TableMigration
