/-
**The books of a pool.**

* `Crew.Booked` — the log, the queue, the workers' hands and the counts of a pool say the same.
* `Crew.conserves` — at every moment of every course of turns, the accepted jobs are the waiting,
  the running and the processed ones, each of them once, and the counts are theirs. A job that was
  refused is never taken, and no job is left when the pool has stopped.
* `Script.leads_runAll` — whatever a script does to a pool is such a course of turns.
-/

import TableMigration.Pool.Script
import TableMigration.Proofs.Crew

namespace TableMigration

namespace Crew

variable {α : Type} {crew next after : Crew α} {name : String} {size : PoolSize}

/-! ### The books -/

/-- Whether a log says the same as the queue, the workers' hands and the counts of a pool. -/
structure Booked (pool : Pool α) (log : List (Entry α)) : Prop where
  numbers : (Log.accepted log).map Ticket.number = List.range' 1 (Log.accepted log).length
  next : pool.next = (Log.accepted log).length + 1
  /-- What was submitted was accepted or refused. -/
  asked : (Log.asked log).Perm ((Log.accepted log).map Ticket.job ++ (Log.refused log).map Prod.fst)
  /-- What was accepted waits or was taken. -/
  waiting : (Log.accepted log).Perm (pool.queue ++ Log.taken log)
  /-- What was taken is in a worker's hands or has ended. -/
  held : (Log.taken log).Perm (pool.running ++ (Log.ended log).map Prod.fst)
  submitted : pool.stats.submitted = (Log.accepted log).length
  processed : pool.stats.processed = (Log.ended log).length
  failed : pool.stats.failed = (Log.ended log).countP fun (_, ending) => ending.isFailure
  rejected : pool.stats.rejected = (Log.refused log).countP fun (_, error) => error == .queueFull

namespace Booked

variable {pool : Pool α} {log : List (Entry α)}

theorem create : Booked (.create name size : Pool α) [] where
  numbers := rfl
  next := rfl
  asked := .nil
  waiting := .nil
  held := .nil
  submitted := rfl
  processed := rfl
  failed := rfl
  rejected := rfl

/-- The books do not tell the phase of a pool. -/
theorem phase (booked : Booked pool log) (phase : PoolPhase) :
    Booked { pool with phase := phase } log :=
  ⟨booked.numbers, booked.next, booked.asked, booked.waiting, booked.held, booked.submitted,
    booked.processed, booked.failed, booked.rejected⟩

theorem accept (booked : Booked pool log) {ticket : Ticket α} (number : ticket.number = pool.next) :
    Booked { pool with
      next := pool.next + 1
      queue := ticket.enqueue pool.queue
      stats := { pool.stats with submitted := pool.stats.submitted + 1 } }
      (log ++ [.accepted ticket]) where
  numbers := by
    have own : ticket.number = 1 + (Log.accepted log).length :=
      number.trans (booked.next.trans (Nat.add_comm ..))
    simp [List.range'_1_concat, own, booked.numbers]
  next := by simp [booked.next]
  asked := by
    simp only [Log.asked_concat, Log.accepted_concat, Log.refused_concat, Entry.asked?,
      Entry.accepted?, Entry.refused?, Option.toList, List.append_nil, List.map_append]
    refine (booked.asked.append_right _).trans ?_
    rw [List.append_assoc, List.append_assoc]
    exact List.perm_append_comm.append_left _
  waiting := by
    simp only [Log.accepted_concat, Log.taken_concat, Entry.accepted?, Entry.taken?, Option.toList,
      List.append_nil]
    calc (Log.accepted log ++ [ticket]).Perm (ticket :: Log.accepted log) :=
          List.perm_append_singleton ..
      _ |>.Perm (ticket :: pool.queue ++ Log.taken log) := booked.waiting.cons ticket
      _ |>.Perm _ := (ticket.enqueue_perm pool.queue).symm.append_right _
  held := by simpa using booked.held
  submitted := by simp [booked.submitted]
  processed := by simpa using booked.processed
  failed := by simpa using booked.failed
  rejected := by simpa using booked.rejected

theorem refuse (booked : Booked pool log) (job : α) {error : PoolError} {counted : Nat}
    (full : counted = if error = .queueFull then 1 else 0) :
    Booked { pool with stats := { pool.stats with rejected := pool.stats.rejected + counted } }
      (log ++ [.refused job error]) where
  numbers := by simpa using booked.numbers
  next := by simpa using booked.next
  asked := by simpa using (booked.asked.append_right [job])
  waiting := by simpa using booked.waiting
  held := by simpa using booked.held
  submitted := by simpa using booked.submitted
  processed := by simpa using booked.processed
  failed := by simpa using booked.failed
  rejected := by
    rw [full]
    simp [booked.rejected, List.countP_cons]

theorem take (booked : Booked pool log) {ticket : Ticket α} {rest : List (Ticket α)}
    (queue : pool.queue = ticket :: rest) :
    Booked { pool with queue := rest, running := pool.running ++ [ticket] }
      (log ++ [.taken ticket]) where
  numbers := by simpa using booked.numbers
  next := by simpa using booked.next
  asked := by simpa using booked.asked
  waiting := by
    simp only [Log.accepted_concat, Log.taken_concat, Entry.accepted?, Entry.taken?, Option.toList,
      List.append_nil]
    have waiting := booked.waiting
    rw [queue] at waiting
    calc (Log.accepted log).Perm (ticket :: (rest ++ Log.taken log)) := waiting
      _ |>.Perm (rest ++ Log.taken log ++ [ticket]) := (List.perm_append_singleton ..).symm
      _ |>.Perm _ := .of_eq (List.append_assoc ..)
  held := by
    simp only [Log.taken_concat, Log.ended_concat, Entry.taken?, Entry.ended?, Option.toList,
      List.append_nil, List.append_assoc]
    refine (booked.held.append_right _).trans ?_
    rw [List.append_assoc]
    exact List.perm_append_comm.append_left _
  submitted := by simpa using booked.submitted
  processed := by simpa using booked.processed
  failed := by simpa using booked.failed
  rejected := by simpa using booked.rejected

theorem finish (booked : Booked pool log) {place : Nat} {ticket : Ticket α}
    (found : pool.running[place]? = some ticket) (ending : JobEnd) :
    Booked { pool with
      running := pool.running.eraseIdx place
      stats := Pool.countEnd pool.stats ending }
      (log ++ [.ended ticket ending]) where
  numbers := by simpa using booked.numbers
  next := by simpa using booked.next
  asked := by simpa using booked.asked
  waiting := by simpa using booked.waiting
  held := by
    obtain ⟨bound, rfl⟩ := List.getElem?_eq_some_iff.mp found
    have parts := (List.getElem_cons_eraseIdx_perm bound).symm
    generalize pool.running[place] = ticket at parts ⊢
    simp only [Log.taken_concat, Log.ended_concat, Entry.taken?, Entry.ended?, Option.toList,
      List.append_nil, List.map_append, List.map_cons, List.map_nil]
    calc (Log.taken log).Perm (pool.running ++ (Log.ended log).map Prod.fst) := booked.held
      _ |>.Perm (ticket :: (pool.running.eraseIdx place ++ (Log.ended log).map Prod.fst)) :=
        parts.append_right _
      _ |>.Perm (pool.running.eraseIdx place ++ (Log.ended log).map Prod.fst ++ [ticket]) :=
        (List.perm_append_singleton ..).symm
      _ |>.Perm _ := .of_eq (List.append_assoc ..)
  submitted := by simpa [Pool.countEnd_eq] using booked.submitted
  processed := by simp [Pool.countEnd_eq, booked.processed]
  failed := by simp [Pool.countEnd_eq, booked.failed, List.countP_cons]
  rejected := by simpa [Pool.countEnd_eq] using booked.rejected

/-- A turn keeps the books. -/
theorem step {turn : Turn α} (booked : Booked crew.pool crew.log)
    (moved : crew.step turn = some next) : Booked next.pool next.log := by
  cases step_does moved with
  | unstarted | unclosed | left => exact booked
  | started | closed | joined => exact booked.phase _
  | accepted priority job => exact booked.accept rfl
  | refused priority job error full =>
    refine booked.refuse job (if_congr ?_ rfl rfl)
    exact full.symm
  | took ticket rest on free queue => exact booked.take queue
  | finished place ticket ending found => exact booked.finish found ending

end Booked

theorem booked {turns : List (Turn α)} (reached : (create name size).steps turns = some crew) :
    Booked crew.pool crew.log :=
  @steps_induction _ _ _ (fun crew => Booked crew.pool crew.log) Booked.step _ .create reached

theorem asked_step {turn : Turn α} (moved : crew.step turn = some next) :
    Log.asked next.log = Log.asked crew.log ++ turn.asked?.toList := by
  cases step_does moved <;> simp [Turn.asked?]

/-- Every submission is in the log, in its place. -/
theorem asked_steps {turns : List (Turn α)} (reached : crew.steps turns = some after) :
    Log.asked after.log = Log.asked crew.log ++ turns.filterMap Turn.asked? := by
  induction turns generalizing crew with
  | nil =>
    cases reached
    exact (List.append_nil _).symm
  | cons turn rest hyp =>
    obtain ⟨next, moved, reached⟩ := Option.bind_eq_some_iff.mp reached
    have split : (turn :: rest).filterMap Turn.asked? =
        turn.asked?.toList ++ rest.filterMap Turn.asked? := by cases turn <;> rfl
    rw [hyp reached, asked_step moved, split, List.append_assoc]

/-! ### What a pool keeps -/

/-- What is true of a pool and its log after some turns. -/
structure Conserves (turns : List (Turn α)) (crew : Crew α) : Prop where
  /-- The accepted jobs are the waiting, the running and the processed ones. -/
  split : (Log.accepted crew.log).Perm
    (crew.pool.queue ++ crew.pool.running ++ (Log.ended crew.log).map Prod.fst)
  /-- No job is two of these, or one of them twice. -/
  apart : ((crew.pool.queue ++ crew.pool.running ++
    (Log.ended crew.log).map Prod.fst).map Ticket.number).Nodup
  submitted : crew.pool.stats.submitted =
    crew.pool.queue.length + crew.pool.running.length + crew.pool.stats.processed
  processed : crew.pool.stats.processed = (Log.ended crew.log).length
  failed : crew.pool.stats.failed =
    (Log.ended crew.log).countP fun (_, ending) => ending.isFailure
  rejected : crew.pool.stats.rejected =
    (Log.refused crew.log).countP fun (_, error) => error == .queueFull
  bounded : crew.pool.queue.length ≤ crew.pool.size.places
  /-- An accepted job waits, or was taken once. -/
  once : ∀ ticket ∈ Log.accepted crew.log,
    ticket ∈ crew.pool.queue ∧ ticket ∉ Log.taken crew.log ∨ ticket ∉ crew.pool.queue ∧
      ((Log.taken crew.log).map Ticket.number).count ticket.number = 1
  /-- What was submitted waits, was taken, or was refused. -/
  asked : (turns.filterMap Turn.asked?).Perm (crew.pool.queue.map Ticket.job ++
    (Log.taken crew.log).map Ticket.job ++ (Log.refused crew.log).map Prod.fst)
  /-- If no job is submitted twice, then none that was refused is taken. -/
  never : (turns.filterMap Turn.asked?).Nodup → ∀ job error, (job, error) ∈ Log.refused crew.log →
    ∀ ticket ∈ Log.taken crew.log, ticket.job ≠ job
  refuses : ∀ priority job, (∃ error, (crew.pool.submit priority job).refusal = some error) ↔
    crew.pool.isRunning = false ∨ crew.pool.size.places ≤ crew.pool.queue.length
  unchanged : ∀ priority job error, (crew.pool.submit priority job).refusal = some error →
    (crew.pool.submit priority job).pool = { crew.pool with
      stats := { crew.pool.stats with
        rejected := crew.pool.stats.rejected + if error = .queueFull then 1 else 0 } }
  /-- A shutdown that returns leaves no job behind. -/
  returned : ∀ after, crew.step .join = some after → after.pool.phase = .closed ∧
    after.pool.queue = [] ∧ after.pool.running = [] ∧
    after.pool.stats.submitted = after.pool.stats.processed
  /-- So does a pool that has stopped, until it is started again. -/
  stopped : crew.pool.hasWorkers = false → crew.pool.queue = [] ∧ crew.pool.running = [] ∧
    crew.pool.stats.submitted = crew.pool.stats.processed
  /-- A shutdown that has begun returns after so many turns of the workers, in any order. -/
  returns : crew.pool.phase = .closing → ∀ winding after, (∀ turn ∈ winding, turn.winds = true) →
    crew.steps winding = some after → after.pool.phase = .closed ∨
      winding.length ≤ crew.toWind ∧ ∃ turn next, turn.winds = true ∧ after.step turn = some next

namespace Booked

variable {pool : Pool α} {log : List (Entry α)}

theorem split (booked : Booked pool log) : (Log.accepted log).Perm
    (pool.queue ++ pool.running ++ (Log.ended log).map Prod.fst) := by
  rw [List.append_assoc]
  exact booked.waiting.trans (booked.held.append_left _)

theorem numbers_nodup (booked : Booked pool log) :
    ((Log.accepted log).map Ticket.number).Nodup := by
  rw [booked.numbers]
  exact List.nodup_range'

theorem submitted_eq (booked : Booked pool log) : pool.stats.submitted =
    pool.queue.length + pool.running.length + pool.stats.processed := by
  rw [booked.submitted, booked.processed, booked.split.length_eq, List.length_append,
    List.length_append, List.length_map]

/-- An accepted job waits, or was taken once. -/
theorem once (booked : Booked pool log) {ticket : Ticket α} (member : ticket ∈ Log.accepted log) :
    ticket ∈ pool.queue ∧ ticket ∉ Log.taken log ∨ ticket ∉ pool.queue ∧
      ((Log.taken log).map Ticket.number).count ticket.number = 1 := by
  have apart : ((pool.queue ++ Log.taken log).map Ticket.number).Nodup :=
    (booked.waiting.map _).nodup_iff.mp booked.numbers_nodup
  rw [List.map_append] at apart
  obtain ⟨_, taken, disjoint⟩ := List.nodup_append'.mp apart
  have both : ticket ∈ pool.queue → ticket ∉ Log.taken log := fun waits was =>
    disjoint (List.mem_map_of_mem waits) (List.mem_map_of_mem was)
  rcases List.mem_append.mp (booked.waiting.mem_iff.mp member) with waits | was
  · exact .inl ⟨waits, both waits⟩
  · refine .inr ⟨fun waits => both waits was, ?_⟩
    exact List.count_eq_one_of_mem taken (List.mem_map_of_mem was)

/-- What was submitted waits, was taken, or was refused. -/
theorem asked_perm (booked : Booked pool log) : (Log.asked log).Perm (pool.queue.map Ticket.job ++
    (Log.taken log).map Ticket.job ++ (Log.refused log).map Prod.fst) := by
  rw [← List.map_append]
  exact booked.asked.trans ((booked.waiting.map _).append_right _)

/-- If no job was submitted twice, then none that was refused was taken. -/
theorem never (booked : Booked pool log) (different : (Log.asked log).Nodup) {job : α}
    {error : PoolError} (refused : (job, error) ∈ Log.refused log) {ticket : Ticket α}
    (taken : ticket ∈ Log.taken log) : ticket.job ≠ job := by
  have different := booked.asked_perm.nodup_iff.mp different
  obtain ⟨_, _, disjoint⟩ := List.nodup_append'.mp different
  rintro rfl
  refine disjoint (List.mem_append_right _ (List.mem_map_of_mem taken)) ?_
  exact List.mem_map.mpr ⟨_, refused, rfl⟩

end Booked

/-- A pool that has stopped has no job. -/
theorem Manned.rests (manned : crew.Manned) (booked : Booked crew.pool crew.log)
    (off : crew.pool.hasWorkers = false) : crew.pool.queue = [] ∧ crew.pool.running = [] ∧
      crew.pool.stats.submitted = crew.pool.stats.processed := by
  obtain ⟨queue, running⟩ := manned.stopped off
  refine ⟨queue, running, ?_⟩
  rw [booked.submitted_eq, queue, running]
  exact Nat.zero_add _

theorem refuses_iff (pool : Pool α) (priority : Nat) (job : α) :
    (∃ error, (pool.submit priority job).refusal = some error) ↔
      pool.isRunning = false ∨ pool.size.places ≤ pool.queue.length := by
  constructor
  · rintro ⟨error, refusal⟩
    by_contra accepts
    rw [not_or, Bool.not_eq_false, Nat.not_le] at accepts
    rw [Pool.submit_accepted priority job accepts.1 accepts.2] at refusal
    cases refusal
  · intro refused
    obtain ⟨error, submitted, _⟩ := Pool.submit_refused priority job refused
    exact ⟨error, congrArg Submission.refusal submitted⟩

/-- A full queue is all that is counted of a refusal. -/
theorem pool_refused {pool : Pool α} {priority : Nat} {job : α} {error : PoolError}
    (refusal : (pool.submit priority job).refusal = some error) :
    (pool.submit priority job).pool = { pool with stats := { pool.stats with
      rejected := pool.stats.rejected + if error = .queueFull then 1 else 0 } } := by
  obtain ⟨other, submitted, full⟩ :=
    Pool.submit_refused priority job ((refuses_iff pool priority job).mp ⟨error, refusal⟩)
  rw [submitted] at refusal ⊢
  cases refusal
  rw [if_congr full rfl rfl]

/-- **A pool loses no job, and runs none twice.** -/
theorem conserves {turns : List (Turn α)} (reached : (create name size).steps turns = some crew) :
    Conserves turns crew := by
  have manned := manned reached
  have booked := booked reached
  have asked : Log.asked crew.log = turns.filterMap Turn.asked? := asked_steps reached
  exact {
    split := booked.split
    apart := (booked.split.map _).nodup_iff.mp booked.numbers_nodup
    submitted := booked.submitted_eq
    processed := booked.processed
    failed := booked.failed
    rejected := booked.rejected
    bounded := manned.places
    once := fun ticket => booked.once
    asked := asked ▸ booked.asked_perm
    never := fun different job error refused ticket =>
      booked.never (asked ▸ different) refused
    refuses := refuses_iff crew.pool
    unchanged := fun priority job error => pool_refused
    returned := fun after moved => by
      have closed : after.pool.phase = .closed := by
        cases step_does moved
        rfl
      have off : after.pool.hasWorkers = false := by
        unfold Pool.hasWorkers
        rw [closed]
        rfl
      exact ⟨closed, (manned.step moved).rests (booked.step moved) off⟩
    stopped := manned.rests booked
    returns := fun closing winding after winds wound =>
      (manned.returns closing winds wound).imp_right fun ⟨most, more⟩ =>
        ⟨Nat.le_of_add_right_le most, more⟩ }

/-- Two workers with two places: a full queue, a bad end of each sort, a shutdown during which one
worker stops before the other, and a job after the restart. -/
def smallTurns : List (Turn String) :=
  [.start, .submit 1 "first", .submit 0 "second", .submit 0 "third", .take, .take,
    .finish 0 (.failed "no rows"), .submit 0 "fourth", .close, .submit 0 "fifth", .take,
    .finish 0 .completed, .leave, .finish 0 (.threw "no connection"), .leave, .join, .start,
    .submit 0 "sixth", .take]

theorem conserves_smallTurns : ∃ crew, (create "pool" ⟨2, 2⟩).steps smallTurns = some crew ∧
    Conserves smallTurns crew ∧ crew.pool.stats = ⟨4, 3, 2, 1⟩ ∧
    (Log.taken crew.log).map Ticket.job = ["second", "first", "fourth", "sixth"] := by
  have goes : ((create "pool" ⟨2, 2⟩).steps smallTurns).any (fun crew =>
      decide (crew.pool.stats = ⟨4, 3, 2, 1⟩ ∧ (Log.taken crew.log).map Ticket.job =
        ["second", "first", "fourth", "sixth"])) = true := by decide +kernel
  obtain ⟨crew, reached, ends⟩ := (Option.any_eq_true _ _).mp goes
  exact ⟨crew, reached, conserves reached, of_decide_eq_true ends⟩

end Crew

/-! ### Scripts -/

namespace Crew

variable {α : Type} {pool after last : Pool α}

/-- Whether turns lead from a pool to another one, with no worker stopped at either end. -/
def Leads (pool after : Pool α) : Prop :=
  ∀ log, ∃ turns later, (Crew.mk pool 0 log).steps turns = some ⟨after, 0, later⟩

namespace Leads

theorem refl (pool : Pool α) : Leads pool pool := fun log => ⟨[], log, rfl⟩

theorem trans (first : Leads pool after) (second : Leads after last) : Leads pool last := by
  intro log
  obtain ⟨turns, later, reached⟩ := first log
  obtain ⟨turns', later', reached'⟩ := second later
  refine ⟨turns ++ turns', later', ?_⟩
  rw [steps_append, reached]
  exact reached'

theorem turn (turn : Turn α) (moved : ∀ log, ∃ later,
    (Crew.mk pool 0 log).step turn = some ⟨after, 0, later⟩) : Leads pool after := by
  intro log
  obtain ⟨later, moved⟩ := moved log
  refine ⟨[turn], later, ?_⟩
  show ((Crew.mk pool 0 log).step turn).bind _ = _
  rw [moved]
  rfl

theorem start (started : pool.start = .ok after) : Leads pool after :=
  turn .start fun log => ⟨log, by simp only [step, started]⟩

theorem submit (pool : Pool α) (priority : Nat) (job : α) :
    Leads pool (pool.submit priority job).pool :=
  turn (.submit priority job) fun _ => ⟨_, rfl⟩

theorem take {ticket : Ticket α} (taken : pool.take? = some (ticket, after)) : Leads pool after :=
  turn .take fun log => by
    have idle := (Bool.and_eq_true_iff.mp (Pool.take_eq taken).1).2
    have free : (Crew.mk pool 0 log).hasFree = true := by
      simpa [hasFree] using idle
    exact ⟨_, (if_pos free).trans (congrArg (Option.map _) taken)⟩

theorem finish (pool : Pool α) (place : Nat) (ending : JobEnd) :
    Leads pool (pool.finish place ending) := by
  cases found : pool.running[place]? with
  | none =>
    have same : pool.finish place ending = pool :=
      if_neg (Nat.not_lt.mpr (List.getElem?_eq_none_iff.mp found))
    rw [same]
    exact .refl pool
  | some ticket =>
    exact turn (.finish place ending) fun log => ⟨_, congrArg (Option.map _) found⟩

theorem close (pool : Pool α) : Leads pool pool.close :=
  turn .close fun log => ⟨log, rfl⟩

theorem join (joined : pool.join? = some after) : Leads pool after := by
  intro log
  obtain ⟨closing, empty, rfl⟩ := Pool.join_eq joined
  exact ⟨_, log, @leave_all _ ⟨pool, 0, log⟩ closing empty _ (Nat.zero_add _)⟩

end Leads

end Crew

namespace Script

open Crew (Leads)

theorem leads_perform (pool : Pool Errand) (number : Nat) (chore : Chore) (later : List Chore) :
    Leads pool (perform pool number chore later).1 := by
  unfold perform
  cases later with
  | nil => exact Leads.finish pool _ _
  | cons child rest => exact (Leads.submit pool child.priority _).trans (Leads.finish _ _ _)

theorem leads_workFor (fuel : Nat) (pool : Pool Errand) : Leads pool (workFor fuel pool).1 := by
  induction fuel generalizing pool with
  | zero => exact .refl pool
  | succ more hyp =>
    unfold workFor
    split
    · exact .refl pool
    · rename_i ticket taken took
      cases ticket.job with
      | wait => exact (Leads.take took).trans (hyp taken)
      | run chore later =>
        have performed := leads_perform taken ticket.number chore later
        exact ((Leads.take took).trans performed).trans (hyp _)

theorem leads_work (pool : Pool Errand) : Leads pool (work pool).1 :=
  leads_workFor _ pool

theorem leads_drain (pool : Pool Errand) : Leads pool (drain pool).1 := by
  have released : ∀ (held : List (Ticket Errand)) (pool : Pool Errand),
      Leads pool (held.foldl (fun pool _ => pool.finish 0 .completed) pool) := by
    intro held
    induction held with
    | nil => exact Leads.refl
    | cons ticket rest hyp => exact fun pool => (Leads.finish pool 0 .completed).trans (hyp _)
  exact (released pool.running pool).trans (leads_work _)

theorem leads_settle (pool : Pool Errand) : Leads pool (settle pool).1 := by
  unfold settle
  dsimp only
  split
  · rename_i joined join
    exact (leads_drain pool).trans (.join join)
  · exact leads_drain pool

theorem leads_step (pool : Pool Errand) (command : Command) : Leads pool (step pool command).1 := by
  have submits : ∀ priority errand, Leads pool (submit pool priority errand).1 :=
    fun priority errand => (Leads.submit pool priority errand).trans (leads_work _)
  cases command with
  | start =>
    simp only [step]
    split
    · rename_i started start
      exact .start start
    · exact .refl pool
  | shutdown =>
    simp only [step]
    split
    · exact (Leads.close pool).trans (leads_settle _)
    · exact .refl pool
  | submit chore later => exact submits _ _
  | hold => exact submits _ _
  | release => exact leads_drain pool
  | beginShutdown => exact .close pool
  | finishShutdown => exact leads_settle pool
  | stats | queueSize | isRunning | info => exact .refl pool

/-- **Whatever a script does to a pool is turns of its users and workers.** -/
theorem leads_runAll (pool : Pool Errand) (commands : List Command) :
    Leads pool (runAll pool commands).2 := by
  induction commands generalizing pool with
  | nil => exact .refl pool
  | cons command rest hyp => exact (leads_step pool command).trans (hyp _)

end Script

end TableMigration
