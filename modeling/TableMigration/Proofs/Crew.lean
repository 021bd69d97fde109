/-
**The workers of a pool, one by one.**

* A `Crew` is a pool whose workers stop one after the other once it was closed, with a log of what
  became of every job. A `Crew.Turn` is one step of whoever uses the pool or of one worker, and
  `Crew.Does` is all that a turn can do. A submission is one turn: the look at whether the pool takes
  jobs and the push of the job belong together.
* `Crew.Manned` — how many workers are at work, and what they leave behind when they stop. What
  `Pool.join?` waits for is the stop of the last one (`Crew.Manned.join_iff`).
* `Crew.Manned.returns` — a shutdown that has begun comes to its end, in whatever order the workers
  do their turns.
-/

import TableMigration.Proofs.Workers

namespace TableMigration

/-! ### The log -/

/-- Whether a job ended badly. -/
def JobEnd.isFailure : JobEnd → Bool
  | .completed => false
  | .failed _ | .threw _ => true

/-- What becomes of a job. -/
inductive Entry (α : Type) where
  | accepted (ticket : Ticket α)
  | refused (job : α) (error : PoolError)
  | taken (ticket : Ticket α)
  | ended (ticket : Ticket α) (ending : JobEnd)

namespace Entry

variable {α : Type}

@[simp]
def accepted? : Entry α → Option (Ticket α)
  | .accepted ticket => some ticket
  | _ => none

@[simp]
def refused? : Entry α → Option (α × PoolError)
  | .refused job error => some (job, error)
  | _ => none

@[simp]
def taken? : Entry α → Option (Ticket α)
  | .taken ticket => some ticket
  | _ => none

@[simp]
def ended? : Entry α → Option (Ticket α × JobEnd)
  | .ended ticket ending => some (ticket, ending)
  | _ => none

/-- The job that was submitted. -/
@[simp]
def asked? : Entry α → Option α
  | .accepted ticket => some ticket.job
  | .refused job _ => some job
  | _ => none

/-- What became of a submission. -/
def ofSubmission (pool : Pool α) (priority : Nat) (job : α) : Entry α :=
  match (pool.submit priority job).refusal with
  | none => .accepted ⟨pool.next, priority, job⟩
  | some error => .refused job error

end Entry

/-! A log is read one sort of entry at a time. -/

namespace Log

variable {α : Type} (log : List (Entry α)) (entry : Entry α)

def accepted : List (Ticket α) :=
  log.filterMap Entry.accepted?

def refused : List (α × PoolError) :=
  log.filterMap Entry.refused?

def taken : List (Ticket α) :=
  log.filterMap Entry.taken?

def ended : List (Ticket α × JobEnd) :=
  log.filterMap Entry.ended?

/-- The jobs that were submitted, in that order. -/
def asked : List α :=
  log.filterMap Entry.asked?

theorem filterMap_concat {β : Type} (read : Entry α → Option β) :
    (log ++ [entry]).filterMap read = log.filterMap read ++ (read entry).toList := by
  rw [List.filterMap_append]
  cases found : read entry <;> simp [found]

@[simp]
theorem accepted_concat : accepted (log ++ [entry]) = accepted log ++ entry.accepted?.toList :=
  filterMap_concat ..

@[simp]
theorem refused_concat : refused (log ++ [entry]) = refused log ++ entry.refused?.toList :=
  filterMap_concat ..

@[simp]
theorem taken_concat : taken (log ++ [entry]) = taken log ++ entry.taken?.toList :=
  filterMap_concat ..

@[simp]
theorem ended_concat : ended (log ++ [entry]) = ended log ++ entry.ended?.toList :=
  filterMap_concat ..

@[simp]
theorem asked_concat : asked (log ++ [entry]) = asked log ++ entry.asked?.toList :=
  filterMap_concat ..

end Log

/-! ### Crews -/

/-- A pool whose workers stop one by one. Whoever uses the pool does one thing after the other, and
only the workers act beside it. So a submission is one turn, though a pool looks at whether it accepts
jobs before it locks its queue and pushes the job: a shutdown by another thread between the two is not
covered. -/
structure Crew (α : Type) where
  pool : Pool α
  /-- How many workers have stopped since the pool was closed. -/
  gone : Nat
  log : List (Entry α)

namespace Crew

variable {α : Type}

/-- What happens next at a pool. -/
inductive Turn (α : Type) where
  | start
  /-- A job is refused or queued, with no other turn in between. -/
  | submit (priority : Nat) (job : α)
  /-- A worker without a job takes one. -/
  | take
  /-- A worker is done with the job at a place among those that workers have. -/
  | finish (place : Nat) (ending : JobEnd)
  /-- A shutdown begins, or finds nothing to do. -/
  | close
  /-- A worker without a job stops, as the pool is closed and no job waits. -/
  | leave
  /-- A shutdown returns, as all workers have stopped. -/
  | join

/-- The job that a turn submits. -/
def Turn.asked? : Turn α → Option α
  | .submit _ job => some job
  | _ => none

/-- Whether a turn is one of a worker, or the end of a shutdown. -/
def Turn.winds : Turn α → Bool
  | .take | .finish _ _ | .leave | .join => true
  | .start | .submit _ _ | .close => false

/-- A pool that was never started. -/
def create (name : String) (size : PoolSize) : Crew α :=
  ⟨.create name size, 0, []⟩

/-- Whether a worker is there that has no job. -/
def hasFree (crew : Crew α) : Bool :=
  crew.gone + crew.pool.running.length < crew.pool.size.workers

/-- Take a turn, if it can be taken. -/
def step (crew : Crew α) : Turn α → Option (Crew α)
  | .start =>
    match crew.pool.start with
    | .ok started => some { crew with pool := started }
    | .error _ => some crew
  | .submit priority job =>
    some { crew with
      pool := (crew.pool.submit priority job).pool
      log := crew.log ++ [.ofSubmission crew.pool priority job] }
  | .take =>
    if crew.hasFree then
      crew.pool.take?.map fun (ticket, pool) =>
        { crew with pool := pool, log := crew.log ++ [.taken ticket] }
    else none
  | .finish place ending =>
    crew.pool.running[place]?.map fun ticket =>
      { crew with pool := crew.pool.finish place ending, log := crew.log ++ [.ended ticket ending] }
  | .close => some { crew with pool := crew.pool.close }
  | .leave =>
    if crew.pool.phase = .closing ∧ crew.pool.queue.isEmpty ∧ crew.hasFree then
      some { crew with gone := crew.gone + 1 }
    else none
  | .join =>
    if crew.pool.phase = .closing ∧ crew.gone = crew.pool.size.workers then
      some { crew with pool := { crew.pool with phase := .closed }, gone := 0 }
    else none

/-- Take turns one after the other. -/
def steps (crew : Crew α) : List (Turn α) → Option (Crew α)
  | [] => some crew
  | turn :: rest => (crew.step turn).bind fun next => next.steps rest

variable {crew next after : Crew α} {name : String} {size : PoolSize}

theorem steps_append (first second : List (Turn α)) :
    crew.steps (first ++ second) = (crew.steps first).bind fun next => next.steps second := by
  induction first generalizing crew with
  | nil => rfl
  | cons turn rest hyp =>
    show (crew.step turn).bind _ = ((crew.step turn).bind _).bind _
    rw [Option.bind_assoc]
    exact congrArg _ (funext fun next => hyp)

/-- What one turn keeps, a course of turns keeps. -/
theorem steps_induction {P : Crew α → Prop}
    (keeps : ∀ {crew next : Crew α} {turn}, P crew → crew.step turn = some next → P next)
    {turns : List (Turn α)} (start : P crew) (reached : crew.steps turns = some after) :
    P after := by
  induction turns generalizing crew with
  | nil =>
    cases reached
    exact start
  | cons turn rest hyp =>
    obtain ⟨next, moved, reached⟩ := Option.bind_eq_some_iff.mp reached
    exact hyp (keeps start moved) reached

/-! ### What a turn does -/

end Crew

namespace Pool

variable {α : Type} {pool after : Pool α}

/-- A job is accepted by an open pool that has a place. -/
theorem submit_accepted (priority : Nat) (job : α) (running : pool.isRunning = true)
    (place : pool.queue.length < pool.size.places) :
    pool.submit priority job = ⟨{ pool with
      next := pool.next + 1
      queue := Ticket.enqueue ⟨pool.next, priority, job⟩ pool.queue
      stats := { pool.stats with submitted := pool.stats.submitted + 1 } }, none⟩ := by
  have opened : pool.phase = .open := beq_iff_eq.mp running
  unfold submit refusal?
  simp only [opened, if_neg (Nat.not_le.mpr place)]

/-- A full queue is all that is counted of a refusal. -/
theorem submit_refused (priority : Nat) (job : α)
    (refused : pool.isRunning = false ∨ pool.size.places ≤ pool.queue.length) :
    ∃ error, pool.submit priority job = ⟨{ pool with stats := { pool.stats with
        rejected := pool.stats.rejected + if pool.isRunning then 1 else 0 } }, some error⟩ ∧
      (error = .queueFull ↔ pool.isRunning = true) := by
  cases running : pool.isRunning with
  | true =>
    have opened : pool.phase = .open := beq_iff_eq.mp running
    have full := refused.resolve_left (running ▸ nofun)
    refine ⟨.queueFull, ?_, by decide⟩
    unfold submit refusal?
    simp only [opened, if_pos full, if_true]
  | false =>
    -- A refusal for another reason leaves the pool as it is.
    have other : ∃ error, pool.refusal? = some error ∧ error ≠ .queueFull := by
      unfold refusal?
      unfold isRunning at running
      cases phase : pool.phase with
      | «open» =>
        rw [phase] at running
        cases running
      | idle => exact ⟨.notStarted, rfl, nofun⟩
      | closing | closed => exact ⟨.closing, rfl, nofun⟩
    obtain ⟨error, refusal, apart⟩ := other
    refine ⟨error, ?_, iff_of_false apart nofun⟩
    unfold submit
    rw [refusal]
    cases error with
    | queueFull => exact absurd rfl apart
    | _ => rfl

theorem countEnd_eq (stats : PoolStats) (ending : JobEnd) : countEnd stats ending =
    { stats with
      processed := stats.processed + 1
      failed := stats.failed + if ending.isFailure then 1 else 0 } := by
  cases ending <;> rfl

theorem finish_eq {place : Nat} {ticket : Ticket α} (found : pool.running[place]? = some ticket)
    (ending : JobEnd) : pool.finish place ending =
      { pool with running := pool.running.eraseIdx place, stats := countEnd pool.stats ending } :=
  if_pos (List.getElem?_eq_some_iff.mp found).1

end Pool

namespace Crew

variable {α : Type} {crew next after : Crew α} {name : String} {size : PoolSize}

/-- All that a turn can do. -/
inductive Does (crew : Crew α) : Turn α → Crew α → Prop
  | started (off : crew.pool.hasWorkers = false) (workers : 0 < crew.pool.size.workers) :
    Does crew .start { crew with pool := { crew.pool with phase := .open } }
  | unstarted : Does crew .start crew
  | accepted (priority : Nat) (job : α) (running : crew.pool.isRunning = true)
      (place : crew.pool.queue.length < crew.pool.size.places) :
    Does crew (.submit priority job) { crew with
      pool := { crew.pool with
        next := crew.pool.next + 1
        queue := Ticket.enqueue ⟨crew.pool.next, priority, job⟩ crew.pool.queue
        stats := { crew.pool.stats with submitted := crew.pool.stats.submitted + 1 } }
      log := crew.log ++ [.accepted ⟨crew.pool.next, priority, job⟩] }
  | refused (priority : Nat) (job : α) (error : PoolError)
      (full : error = .queueFull ↔ crew.pool.isRunning = true) :
    Does crew (.submit priority job) { crew with
      pool := { crew.pool with
        stats := { crew.pool.stats with
          rejected := crew.pool.stats.rejected + if crew.pool.isRunning then 1 else 0 } }
      log := crew.log ++ [.refused job error] }
  | took (ticket : Ticket α) (rest : List (Ticket α)) (on : crew.pool.hasWorkers = true)
      (free : crew.hasFree = true) (queue : crew.pool.queue = ticket :: rest) :
    Does crew .take { crew with
      pool := { crew.pool with queue := rest, running := crew.pool.running ++ [ticket] }
      log := crew.log ++ [.taken ticket] }
  | finished (place : Nat) (ticket : Ticket α) (ending : JobEnd)
      (found : crew.pool.running[place]? = some ticket) :
    Does crew (.finish place ending) { crew with
      pool := { crew.pool with
        running := crew.pool.running.eraseIdx place
        stats := Pool.countEnd crew.pool.stats ending }
      log := crew.log ++ [.ended ticket ending] }
  | closed (opened : crew.pool.phase = .open) :
    Does crew .close { crew with pool := { crew.pool with phase := .closing } }
  | unclosed : Does crew .close crew
  | left (closing : crew.pool.phase = .closing) (queue : crew.pool.queue = [])
      (free : crew.hasFree = true) : Does crew .leave { crew with gone := crew.gone + 1 }
  | joined (closing : crew.pool.phase = .closing) (all : crew.gone = crew.pool.size.workers) :
    Does crew .join { crew with pool := { crew.pool with phase := .closed }, gone := 0 }

theorem step_does {turn : Turn α} (moved : crew.step turn = some next) : crew.Does turn next := by
  cases turn with
  | start =>
    simp only [step, Pool.start] at moved
    split at moved
    · rename_i started start
      cases moved
      split at start
      · cases start
      · rename_i off
        split at start
        · cases start
        · rename_i workers
          split at start
          · cases start
          · cases start
            exact .started (Bool.not_eq_true _ ▸ off) (Nat.pos_of_ne_zero workers)
    · cases moved
      exact .unstarted
  | submit priority job =>
    cases moved
    by_cases ready : crew.pool.isRunning = true ∧ crew.pool.queue.length < crew.pool.size.places
    · have submitted := Pool.submit_accepted priority job ready.1 ready.2
      unfold Entry.ofSubmission
      rw [submitted]
      exact .accepted priority job ready.1 ready.2
    · have unready : crew.pool.isRunning = false ∨
          crew.pool.size.places ≤ crew.pool.queue.length := by
        rw [not_and_or, Bool.not_eq_true, Nat.not_lt] at ready
        exact ready
      obtain ⟨error, submitted, full⟩ := Pool.submit_refused priority job unready
      unfold Entry.ofSubmission
      rw [submitted]
      exact .refused priority job error full
  | take =>
    simp only [step] at moved
    split at moved
    · rename_i free
      obtain ⟨⟨ticket, pool⟩, taken, rfl⟩ := Option.map_eq_some_iff.mp moved
      obtain ⟨idle, rest, queue, rfl⟩ := Pool.take_eq taken
      exact .took ticket rest (Bool.and_eq_true_iff.mp idle).1 free queue
    · cases moved
  | finish place ending =>
    obtain ⟨ticket, found, rfl⟩ := Option.map_eq_some_iff.mp moved
    rw [Pool.finish_eq found]
    exact .finished place ticket ending found
  | close =>
    cases moved
    unfold Pool.close
    split
    · rename_i opened
      exact .closed opened
    · exact .unclosed
  | leave =>
    simp only [step] at moved
    split at moved
    · rename_i ready
      cases moved
      exact .left ready.1 (List.isEmpty_iff.mp ready.2.1) ready.2.2
    · cases moved
  | join =>
    simp only [step] at moved
    split at moved
    · rename_i ready
      cases moved
      exact .joined ready.1 ready.2
    · cases moved

/-! ### The workers -/

/-- How many workers there are, and what they leave behind. -/
structure Manned (crew : Crew α) : Prop where
  /-- No worker has two jobs, and one that has stopped has none. -/
  hands : crew.gone + crew.pool.running.length ≤ crew.pool.size.workers
  places : crew.pool.queue.length ≤ crew.pool.size.places
  some_ : crew.pool.hasWorkers = true → 0 < crew.pool.size.workers
  /-- The first worker that stops leaves no job to wait. -/
  left : 0 < crew.gone → crew.pool.phase = .closing ∧ crew.pool.queue = []
  stopped : crew.pool.hasWorkers = false → crew.pool.Empty

theorem manned_create : (create name size : Crew α).Manned where
  hands := Nat.zero_le _
  places := Nat.zero_le _
  some_ := nofun
  left := nofun
  stopped _ := ⟨rfl, rfl⟩

/-- When all workers have stopped, no job waits, and no worker has one. -/
theorem Manned.drained (manned : crew.Manned) (closing : crew.pool.phase = .closing)
    (all : crew.gone = crew.pool.size.workers) : crew.pool.Empty := by
  have workers := manned.some_ (Pool.hasWorkers_of_phase (.inr closing))
  have hands := manned.hands
  exact ⟨(manned.left (all ▸ workers)).2, List.length_eq_zero_iff.mp (by omega)⟩

/-- A turn keeps the workers in order. -/
theorem Manned.step {turn : Turn α} (manned : crew.Manned) (moved : crew.step turn = some next) :
    next.Manned := by
  have ⟨hands, places, some_, left, stopped⟩ := manned
  have none_left : crew.pool.phase ≠ .closing → crew.gone = 0 := fun phase =>
    Nat.eq_zero_of_not_pos fun pos => phase (left pos).1
  cases step_does moved with
  | started off workers =>
    have phase : crew.pool.phase ≠ .closing := fun closing => by
      rw [Pool.hasWorkers_of_phase (.inr closing)] at off
      cases off
    exact ⟨hands, places, fun _ => workers,
      fun pos => absurd (none_left phase) (Nat.ne_of_gt pos), nofun⟩
  | unstarted | unclosed => exact ⟨hands, places, some_, left, stopped⟩
  | accepted priority job running place =>
    have opened : crew.pool.phase = .open := beq_iff_eq.mp running
    have longer := (Ticket.enqueue_perm ⟨crew.pool.next, priority, job⟩ crew.pool.queue).length_eq
    refine ⟨hands, longer.trans_le place, some_, fun pos => ?_, fun off => ?_⟩
    · rw [(left pos).1] at opened
      cases opened
    · have on : crew.pool.hasWorkers = true := Pool.hasWorkers_of_phase (.inl opened)
      exact absurd (on.symm.trans off) nofun
  | refused priority job error full => exact ⟨hands, places, some_, left, stopped⟩
  | took ticket rest on free queue =>
    have free : crew.gone + crew.pool.running.length < crew.pool.size.workers :=
      of_decide_eq_true free
    refine ⟨?_, ?_, some_, fun pos => ?_, fun off => absurd (on.symm.trans off) nofun⟩
    · rw [List.length_append]
      exact free
    · rw [queue] at places
      exact Nat.le_of_succ_le places
    · rw [queue] at left
      exact absurd (left pos).2 nofun
  | finished place ticket ending found =>
    obtain ⟨bound, _⟩ := List.getElem?_eq_some_iff.mp found
    refine ⟨?_, places, some_, left, fun off => ?_⟩
    · have shorter : (crew.pool.running.eraseIdx place).length ≤ crew.pool.running.length :=
        (List.eraseIdx_sublist ..).length_le
      exact (Nat.add_le_add_left shorter _).trans hands
    · rw [(stopped off).2] at bound
      exact absurd bound (Nat.not_lt_zero _)
  | closed opened =>
    have pos := some_ (Pool.hasWorkers_of_phase (.inl opened))
    have noneGone : crew.gone = 0 := none_left (opened ▸ nofun)
    exact ⟨hands, places, fun _ => pos, fun left => absurd noneGone (Nat.ne_of_gt left), nofun⟩
  | left closing queue free =>
    refine ⟨?_, places, some_, fun _ => ⟨closing, queue⟩, stopped⟩
    have free : crew.gone + crew.pool.running.length < crew.pool.size.workers :=
      of_decide_eq_true free
    show crew.gone + 1 + crew.pool.running.length ≤ crew.pool.size.workers
    omega
  | joined closing all =>
    have empty := manned.drained closing all
    refine ⟨?_, places, nofun, nofun, fun _ => empty⟩
    rw [empty.2]
    exact Nat.zero_le _

theorem manned {turns : List (Turn α)} (reached : (create name size).steps turns = some crew) :
    crew.Manned :=
  steps_induction Manned.step manned_create reached

/-! ### The shutdown -/

theorem leave_eq (closing : crew.pool.phase = .closing) (queue : crew.pool.queue = [])
    (free : crew.gone + crew.pool.running.length < crew.pool.size.workers) :
    crew.step .leave = some { crew with gone := crew.gone + 1 } :=
  if_pos ⟨closing, List.isEmpty_iff.mpr queue, decide_eq_true free⟩

/-- Workers that have nothing left to do stop one by one, and the shutdown returns. -/
theorem leave_all (closing : crew.pool.phase = .closing) (empty : crew.pool.Empty) (more : Nat)
    (all : crew.gone + more = crew.pool.size.workers) :
    crew.steps (List.replicate more .leave ++ [.join]) =
      some { crew with pool := { crew.pool with phase := .closed }, gone := 0 } := by
  induction more generalizing crew with
  | zero =>
    show (crew.step .join).bind _ = _
    rw [show crew.step .join = _ from if_pos ⟨closing, all⟩]
    rfl
  | succ more hyp =>
    have free : crew.gone + crew.pool.running.length < crew.pool.size.workers := by
      rw [empty.2, ← all]
      exact Nat.lt_add_of_pos_right (Nat.succ_pos more)
    show (crew.step .leave).bind _ = _
    rw [leave_eq closing empty.1 free]
    have fewer : crew.gone + 1 + more = crew.pool.size.workers := by
      rw [← all]
      exact Nat.add_right_comm ..
    exact @hyp { crew with gone := crew.gone + 1 } closing empty fewer

theorem pool_of_leaves {leaves : List (Turn α)} (only : ∀ turn ∈ leaves, turn = .leave)
    (reached : crew.steps leaves = some after) : after.pool = crew.pool := by
  induction leaves generalizing crew with
  | nil =>
    cases reached
    rfl
  | cons turn rest hyp =>
    obtain ⟨next, moved, reached⟩ := Option.bind_eq_some_iff.mp reached
    have rest_only := fun turn member => only turn (List.mem_cons_of_mem _ member)
    rw [hyp rest_only reached]
    obtain rfl := only turn List.mem_cons_self
    cases step_does moved
    rfl

/-- **What a pool waits for is the stop of its last worker.** -/
theorem Manned.join_iff (manned : crew.Manned) (stopped : Pool α) :
    crew.pool.join? = some stopped ↔ ∃ leaves after, (∀ turn ∈ leaves, turn = .leave) ∧
      crew.steps (leaves ++ [.join]) = some after ∧ after.pool = stopped := by
  constructor
  · intro joined
    obtain ⟨closing, empty, rfl⟩ := Pool.join_eq joined
    have hands : crew.gone ≤ crew.pool.size.workers := Nat.le_of_add_right_le manned.hands
    have left := leave_all closing empty _ (Nat.add_sub_cancel' hands)
    exact ⟨_, _, fun turn => List.eq_of_mem_replicate, left, rfl⟩
  · rintro ⟨leaves, after, only, reached, rfl⟩
    rw [steps_append] at reached
    obtain ⟨last, left, reached⟩ := Option.bind_eq_some_iff.mp reached
    obtain ⟨next, moved, ended⟩ := Option.bind_eq_some_iff.mp reached
    cases ended
    have same := pool_of_leaves only left
    have manned : last.Manned := steps_induction Manned.step manned left
    cases step_does moved with
    | joined closing all =>
      have empty := manned.drained closing all
      have drained : last.pool.isDrained = true := by
        unfold Pool.isDrained
        rw [empty.1, empty.2]
        rfl
      rw [← same]
      exact if_pos ⟨closing, drained⟩

/-- How many turns the workers of a closed pool have yet to take. -/
def toWind (crew : Crew α) : Nat :=
  2 * crew.pool.queue.length + crew.pool.running.length + (crew.pool.size.workers - crew.gone)

/-- Every turn of a worker brings the end of a shutdown nearer. -/
theorem wind_step {turn : Turn α} (winds : turn.winds = true) (moved : crew.step turn = some next) :
    (crew.pool.phase = .closed → next.pool.phase = .closed) ∧
      (crew.pool.phase = .closing → next.pool.phase = .closed ∨
        next.pool.phase = .closing ∧ next.toWind < crew.toWind) := by
  cases step_does moved with
  | started | unstarted | accepted | refused | closed | unclosed => cases winds
  | took ticket rest on free queue =>
    refine ⟨id, fun closing => .inr ⟨closing, ?_⟩⟩
    simp only [toWind, queue, List.length_append, List.length_cons, List.length_nil]
    omega
  | finished place ticket ending found =>
    obtain ⟨bound, _⟩ := List.getElem?_eq_some_iff.mp found
    refine ⟨id, fun closing => .inr ⟨closing, ?_⟩⟩
    simp only [toWind, List.length_eraseIdx_of_lt bound]
    omega
  | left closing queue free =>
    have free : crew.gone + crew.pool.running.length < crew.pool.size.workers :=
      of_decide_eq_true free
    refine ⟨id, fun closing => .inr ⟨closing, ?_⟩⟩
    simp only [toWind]
    omega
  | joined closing all => exact ⟨fun _ => rfl, fun _ => .inl rfl⟩

theorem closed_of_winds {winding : List (Turn α)} (winds : ∀ turn ∈ winding, turn.winds = true)
    (closed : crew.pool.phase = .closed) (reached : crew.steps winding = some after) :
    after.pool.phase = .closed := by
  induction winding generalizing crew with
  | nil =>
    cases reached
    exact closed
  | cons turn rest hyp =>
    obtain ⟨next, moved, reached⟩ := Option.bind_eq_some_iff.mp reached
    obtain ⟨first, winds⟩ := List.forall_mem_cons.mp winds
    exact hyp winds ((wind_step first moved).1 closed) reached

/-- While a shutdown goes on, a worker has something to do, or the shutdown returns. -/
theorem Manned.winds (manned : crew.Manned) (closing : crew.pool.phase = .closing) :
    ∃ turn next, turn.winds = true ∧ crew.step turn = some next := by
  cases running : crew.pool.running with
  | cons ticket others =>
    -- A worker that has a job can always end it.
    have found : crew.pool.running[0]? = some ticket := by rw [running]; rfl
    exact ⟨.finish 0 .completed, _, rfl, congrArg (Option.map _) found⟩
  | nil =>
    cases queue : crew.pool.queue with
    | cons ticket rest =>
      -- A job still waits, so no worker has stopped yet, and one of them takes it.
      have noneGone : crew.gone = 0 := Nat.eq_zero_of_not_pos fun pos => by
        rw [(manned.left pos).2] at queue
        cases queue
      have workers := manned.some_ (Pool.hasWorkers_of_phase (.inr closing))
      have free : crew.hasFree = true := by simpa [hasFree, noneGone, running] using workers
      have idle : crew.pool.hasIdleWorker = true := by
        simpa [Pool.hasIdleWorker, Pool.hasWorkers_of_phase (.inr closing), running] using workers
      exact ⟨.take, _, rfl, (if_pos free).trans
        (congrArg (Option.map _) (Pool.take_of_ready idle queue))⟩
    | nil =>
      have hands := manned.hands
      rw [running, List.length_nil, Nat.add_zero] at hands
      rcases hands.lt_or_eq with free | all
      · refine ⟨.leave, _, rfl, leave_eq closing queue ?_⟩
        rw [running]
        exact free
      · exact ⟨.join, _, rfl, if_pos ⟨closing, all⟩⟩

/-- **Every shutdown returns**, in whatever order the workers do their turns and whatever becomes of
the jobs: they have only so many turns to take, and until the end there is one that can be taken. -/
theorem Manned.returns (manned : crew.Manned) (closing : crew.pool.phase = .closing)
    {winding : List (Turn α)} (winds : ∀ turn ∈ winding, turn.winds = true)
    (reached : crew.steps winding = some after) :
    after.pool.phase = .closed ∨ winding.length + after.toWind ≤ crew.toWind ∧
      ∃ turn next, turn.winds = true ∧ after.step turn = some next := by
  induction winding generalizing crew with
  | nil =>
    cases reached
    exact .inr ⟨(Nat.zero_add _).le, manned.winds closing⟩
  | cons turn rest hyp =>
    obtain ⟨next, moved, reached⟩ := Option.bind_eq_some_iff.mp reached
    obtain ⟨first, winds⟩ := List.forall_mem_cons.mp winds
    rcases (wind_step first moved).2 closing with closed | ⟨closing, fewer⟩
    · refine .inl (closed_of_winds winds closed reached)
    · have later := hyp (manned.step moved) closing winds reached
      refine later.imp_right fun ⟨most, more⟩ => ⟨?_, more⟩
      rw [List.length_cons]
      omega

end Crew

end TableMigration
