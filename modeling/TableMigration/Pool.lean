/-
**Worker pools.**

* A `Pool` has a fixed number of workers and a queue with a fixed number of places. A job that is
  accepted gets a `Ticket`, waits in the queue, is taken by a worker and ends. Nothing else happens
  to it.
* The queue stands in the order of `Ticket.ahead`: the lower priority number first, and the earlier
  ticket first where these are equal. A worker takes the head.
* `Pool.submit` refuses a job unless the pool is open and the queue has a place. `Pool.close` lets
  the workers empty the queue, and `Pool.join?` ends the pool once they have. A pool that was closed
  can be started again, and goes on with its numbers and counts.
-/

import TableMigration.Notice
import TableMigration.Outcome

namespace TableMigration

/-! ### Tickets and the queue -/

/-- An accepted job. -/
structure Ticket (α : Type) where
  /-- Which accepted job of the pool this is, counted from one. -/
  number : Nat
  /-- A lower number is taken first. -/
  priority : Nat
  job : α

/-- Whether a ticket is taken before another. -/
def Ticket.ahead {α : Type} (first second : Ticket α) : Bool :=
  first.priority < second.priority
    || (first.priority == second.priority && first.number < second.number)

/-- Put a ticket into a queue, in front of the first ticket that it is ahead of. -/
def Ticket.enqueue {α : Type} (ticket : Ticket α) : List (Ticket α) → List (Ticket α)
  | [] => [ticket]
  | head :: rest =>
    if ticket.ahead head then ticket :: head :: rest else head :: enqueue ticket rest

/-- The queue holds what it held, and the new ticket. -/
theorem Ticket.enqueue_perm {α : Type} (ticket : Ticket α) (queue : List (Ticket α)) :
    (ticket.enqueue queue).Perm (ticket :: queue) := by
  induction queue with
  | nil => exact .refl _
  | cons head rest hyp =>
    by_cases first : ticket.ahead head = true
    · simp [enqueue, first]
    · simp only [enqueue, first]
      exact (hyp.cons head).trans (.swap ticket head rest)

/-! ### The pool -/

/-- Where a pool is in its life. -/
inductive PoolPhase where
  /-- Never started. -/
  | idle
  /-- Accepts and runs jobs. -/
  | open
  /-- Runs the jobs that wait, and accepts none. -/
  | closing
  /-- Stopped. -/
  | closed
  deriving DecidableEq

/-- How a job ends. -/
inductive JobEnd where
  | completed
  | failed (reason : String)
  | threw (reason : String)
  deriving DecidableEq

/-- Why a pool does not do what it is asked for. -/
inductive PoolError where
  | alreadyStarted
  | noWorkers
  | noPlaces
  | closing
  | notStarted
  | queueFull
  deriving DecidableEq

/-- The text of an error. -/
def PoolError.message : PoolError → String
  | .alreadyStarted => "WorkerPool already initialized"
  | .noWorkers => "Invalid number of workers: 0"
  | .noPlaces => "Invalid max queue size: 0"
  | .closing => "WorkerPool is shutting down"
  | .notStarted => "WorkerPool not initialized"
  | .queueFull => "Queue is full"

/-- How large a pool is. -/
structure PoolSize where
  workers : Nat
  places : Nat
  deriving DecidableEq

/-- What a pool has counted since it exists. -/
structure PoolStats where
  submitted : Nat
  processed : Nat
  failed : Nat
  rejected : Nat
  deriving DecidableEq

/-- A pool of workers. -/
structure Pool (α : Type) where
  name : String
  size : PoolSize
  phase : PoolPhase
  /-- The number of the next ticket. -/
  next : Nat
  /-- The tickets that wait, in the order in which they are taken. -/
  queue : List (Ticket α)
  /-- The tickets that workers have, in the order in which they were taken. -/
  running : List (Ticket α)
  stats : PoolStats

/-- What became of a submission: the pool afterwards, and why the job was refused if it was. -/
structure Submission (α : Type) where
  pool : Pool α
  refusal : Option PoolError

namespace Pool

variable {α : Type}

/-- A pool that was never started. -/
def create (name : String) (size : PoolSize) : Pool α where
  name := name
  size := size
  phase := .idle
  next := 1
  queue := []
  running := []
  stats := ⟨0, 0, 0, 0⟩

/-- Whether the pool accepts jobs. -/
def isRunning (pool : Pool α) : Bool :=
  pool.phase == .open

/-- Whether the pool has workers. -/
def hasWorkers (pool : Pool α) : Bool :=
  pool.phase == .open || pool.phase == .closing

/-- Start the workers. -/
def start (pool : Pool α) : Except PoolError (Pool α) :=
  if pool.hasWorkers then .error .alreadyStarted
  else if pool.size.workers = 0 then .error .noWorkers
  else if pool.size.places = 0 then .error .noPlaces
  else .ok { pool with phase := .open }

/-- The line that tells of the start. -/
def startNotice (pool : Pool α) : Notice :=
  .poolStarted pool.name pool.size.workers

/-- Why a job would be refused now. -/
def refusal? (pool : Pool α) : Option PoolError :=
  match pool.phase with
  | .closing | .closed => some .closing
  | .idle => some .notStarted
  | .open => if pool.size.places ≤ pool.queue.length then some .queueFull else none

/-- Put a job into the queue, or count it as rejected if the queue is full. -/
def submit (pool : Pool α) (priority : Nat) (job : α) : Submission α :=
  match pool.refusal? with
  | some .queueFull =>
    ⟨{ pool with stats := { pool.stats with rejected := pool.stats.rejected + 1 } },
      some .queueFull⟩
  | some error => ⟨pool, some error⟩
  | none =>
    let ticket : Ticket α := ⟨pool.next, priority, job⟩
    ⟨{ pool with
        next := pool.next + 1
        queue := ticket.enqueue pool.queue
        stats := { pool.stats with submitted := pool.stats.submitted + 1 } }, none⟩

/-- Whether a worker is free to take a job. -/
def hasIdleWorker (pool : Pool α) : Bool :=
  pool.hasWorkers && pool.running.length < pool.size.workers

/-- A free worker takes the head of the queue. -/
def take? (pool : Pool α) : Option (Ticket α × Pool α) :=
  match pool.queue with
  | [] => none
  | ticket :: rest =>
    if pool.hasIdleWorker then
      some (ticket, { pool with queue := rest, running := pool.running ++ [ticket] })
    else none

/-- Change the job of a ticket that a worker has, by its place among those. -/
def amend (pool : Pool α) (place : Nat) (job : α) : Pool α :=
  { pool with running := pool.running.modify place fun ticket => { ticket with job := job } }

/-- Count the end of a job. -/
def countEnd (stats : PoolStats) : JobEnd → PoolStats
  | .completed => { stats with processed := stats.processed + 1 }
  | .failed _ | .threw _ =>
    { stats with processed := stats.processed + 1, failed := stats.failed + 1 }

/-- A worker is done with the ticket at a place among those that workers have. -/
def finish (pool : Pool α) (place : Nat) (ending : JobEnd) : Pool α :=
  if place < pool.running.length then
    { pool with
      running := pool.running.eraseIdx place
      stats := countEnd pool.stats ending }
  else pool

/-- What the pool tells about the end of a job. What is thrown shows no text from its first null
character on. -/
def endNotices (pool : Pool α) (number : Nat) : JobEnd → List Notice
  | .completed => []
  | .failed reason => [.jobFailed number pool.name reason]
  | .threw reason => [.jobThrew number pool.name (beforeNull reason)]

/-- Accept no more jobs. Only an open pool can be closed. -/
def close (pool : Pool α) : Pool α :=
  if pool.phase = .open then { pool with phase := .closing } else pool

/-- Whether no job waits and no worker has one. -/
def isDrained (pool : Pool α) : Bool :=
  pool.queue.isEmpty && pool.running.isEmpty

/-- Stop the workers of a pool that is closing and has run all its jobs. -/
def join? (pool : Pool α) : Option (Pool α) :=
  if pool.phase = .closing ∧ pool.isDrained = true then some { pool with phase := .closed }
  else none

end Pool

end TableMigration
