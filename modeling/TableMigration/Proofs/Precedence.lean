/-
**The order in which jobs are served.**

* `Ticket.byPriority` — some jobs in the order of a stable sort by their priority numbers.
* `Crew.waiting` — the accepted jobs that no worker has taken, in the order of their submission. It
  is read off the log, and the queue of a pool is always the sort of it (`Crew.queue_eq`).
* `Crew.serves` — so a worker takes the job that waits with the least priority number, and of those
  the one that was submitted first. Jobs that wait together, to which none is added, are taken in
  the order of a stable sort, and a single worker ends each of them before it takes the next.
-/

import TableMigration.Proofs.Books

namespace TableMigration

/-! ### Tickets in order -/

namespace Ticket

variable {α : Type} {first second third ticket : Ticket α} {tickets queue : List (Ticket α)}

theorem ahead_iff : first.ahead second = true ↔ first.priority < second.priority ∨
    first.priority = second.priority ∧ first.number < second.number := by
  simp [ahead]

theorem ahead_trans (one : first.ahead second = true) (two : second.ahead third = true) :
    first.ahead third = true := by
  rw [ahead_iff] at one two ⊢
  omega

/-- Of two tickets one is ahead, and not both are. -/
theorem ahead_or (apart : first.number ≠ second.number) :
    first.ahead second = true ∨ second.ahead first = true := by
  rw [ahead_iff, ahead_iff]
  omega

theorem not_ahead (one : first.ahead second = true) : ¬ second.ahead first = true := by
  rw [ahead_iff] at one ⊢
  omega

/-- Whether every ticket of a list is ahead of those behind it. -/
def Lined (tickets : List (Ticket α)) : Prop :=
  tickets.Pairwise fun first second => first.ahead second = true

/-- Tickets can be lined up in one way only. -/
theorem Lined.unique (lined : Lined tickets) (lined' : Lined queue) (same : tickets.Perm queue) :
    tickets = queue :=
  same.eq_of_pairwise (fun _ _ _ _ one two => absurd two (not_ahead one)) lined lined'

/-- A queue stays lined up when a ticket is put into it. -/
theorem Lined.enqueue (lined : Lined queue)
    (apart : ∀ other ∈ queue, ticket.number ≠ other.number) : Lined (ticket.enqueue queue) := by
  induction queue with
  | nil => exact List.pairwise_singleton _ _
  | cons head rest hyp =>
    obtain ⟨first, others⟩ := List.pairwise_cons.mp lined
    unfold Ticket.enqueue
    by_cases before : ticket.ahead head = true
    · rw [if_pos before]
      refine List.pairwise_cons.mpr ⟨fun other member => ?_, lined⟩
      rcases List.mem_cons.mp member with rfl | behind
      · exact before
      · exact ahead_trans before (first other behind)
    · rw [if_neg before]
      have after := (ahead_or (apart head List.mem_cons_self)).resolve_left before
      refine List.pairwise_cons.mpr ⟨fun other member => ?_, ?_⟩
      · rcases List.mem_cons.mp ((ticket.enqueue_perm rest).mem_iff.mp member) with rfl | behind
        · exact after
        · exact first other behind
      · exact hyp others fun other behind => apart other (List.mem_cons_of_mem _ behind)

/-- Some jobs in the order of a stable sort by their priority numbers. -/
def byPriority (tickets : List (Ticket α)) : List (Ticket α) :=
  tickets.mergeSort fun first second => first.priority ≤ second.priority

theorem byPriority_perm (tickets : List (Ticket α)) : (byPriority tickets).Perm tickets :=
  List.mergeSort_perm ..

/-- A stable sort of jobs that stand in the order of their submission lines them up. -/
theorem lined_byPriority
    (numbered : tickets.Pairwise fun first second => first.number < second.number) :
    Lined (byPriority tickets) := by
  have trans : ∀ first second third : Ticket α, decide (first.priority ≤ second.priority) = true →
      decide (second.priority ≤ third.priority) = true →
      decide (first.priority ≤ third.priority) = true := by
    simp only [decide_eq_true_iff]
    exact fun _ _ _ => Nat.le_trans
  have total : ∀ first second : Ticket α, (decide (first.priority ≤ second.priority) ||
      decide (second.priority ≤ first.priority)) = true := by
    simp only [Bool.or_eq_true, decide_eq_true_iff]
    exact fun _ _ => Nat.le_total ..
  induction tickets with
  | nil =>
    unfold byPriority
    rw [List.mergeSort_nil]
    exact .nil
  | cons ticket rest hyp =>
    obtain ⟨least, numbered⟩ := List.pairwise_cons.mp numbered
    have lined := hyp numbered
    have sorted := List.pairwise_mergeSort trans total (ticket :: rest)
    obtain ⟨before, behind, whole, others, less⟩ := List.mergeSort_cons trans total ticket rest
    rw [whole] at sorted
    unfold byPriority at lined ⊢
    rw [others] at lined
    rw [whole]
    obtain ⟨front, back, across⟩ := List.pairwise_append.mp lined
    obtain ⟨_, sorted, _⟩ := List.pairwise_append.mp sorted
    refine List.pairwise_append.mpr ⟨front, List.pairwise_cons.mpr ⟨fun other member => ?_, back⟩,
      fun other member last among => ?_⟩
    · -- what stands behind has no lower priority number, and was submitted later
      have lower := of_decide_eq_true (List.rel_of_pairwise_cons sorted member)
      have known : other ∈ rest := List.mem_mergeSort.mp (others ▸ List.mem_append_right _ member)
      have later := least other known
      rw [ahead_iff]
      omega
    · rcases List.mem_cons.mp among with rfl | back
      · have lower := less other member
        rw [Bool.not_eq_true', decide_eq_false_iff_not] at lower
        rw [ahead_iff]
        omega
      · exact across other member last back

end Ticket

/-! ### The queue -/

namespace Crew

open Ticket (byPriority Lined)

variable {α : Type} {crew next after : Crew α} {name : String} {size : PoolSize}

/-- The accepted jobs that no worker has taken, in the order of their submission. -/
def waiting (crew : Crew α) : List (Ticket α) :=
  (Log.accepted crew.log).filter fun ticket =>
    ticket.number ∉ (Log.taken crew.log).map Ticket.number

namespace Booked

variable {pool : Pool α} {log : List (Entry α)}

/-- The accepted jobs are numbered in the order of their submission. -/
theorem numbered (booked : Booked pool log) :
    (Log.accepted log).Pairwise fun first second => first.number < second.number := by
  refine List.pairwise_map.mp ?_
  rw [booked.numbers]
  exact List.pairwise_lt_range'

/-- A number is given out once. -/
theorem number_lt (booked : Booked pool log) {ticket : Ticket α}
    (member : ticket ∈ Log.accepted log) : ticket.number < pool.next := by
  have among := List.mem_map_of_mem (f := Ticket.number) member
  rw [booked.numbers, List.mem_range'_1] at among
  rw [booked.next]
  omega

theorem accepted_of_queued (booked : Booked pool log) {ticket : Ticket α}
    (member : ticket ∈ pool.queue) : ticket ∈ Log.accepted log :=
  booked.waiting.mem_iff.mpr (List.mem_append_left _ member)

/-- What stands in the queue is what was accepted and not taken. -/
theorem waiting_perm (booked : Booked crew.pool crew.log) : crew.waiting.Perm crew.pool.queue := by
  have apart : ((crew.pool.queue ++ Log.taken crew.log).map Ticket.number).Nodup :=
    (booked.waiting.map _).nodup_iff.mp booked.numbers_nodup
  rw [List.map_append] at apart
  obtain ⟨_, _, disjoint⟩ := List.nodup_append'.mp apart
  have split := booked.waiting.filter fun ticket =>
    decide (ticket.number ∉ (Log.taken crew.log).map Ticket.number)
  rw [List.filter_append] at split
  have queued : crew.pool.queue.filter (fun ticket =>
      decide (ticket.number ∉ (Log.taken crew.log).map Ticket.number)) = crew.pool.queue :=
    List.filter_eq_self.mpr fun ticket member =>
      decide_eq_true fun taken => disjoint (List.mem_map_of_mem member) taken
  have taken : (Log.taken crew.log).filter (fun ticket =>
      decide (ticket.number ∉ (Log.taken crew.log).map Ticket.number)) = [] := by
    refine List.filter_eq_nil_iff.mpr fun ticket member => ?_
    rw [decide_eq_true_iff, not_not]
    exact List.mem_map_of_mem member
  rw [queued, taken, List.append_nil] at split
  exact split

theorem waiting_numbered (booked : Booked crew.pool crew.log) :
    crew.waiting.Pairwise fun first second => first.number < second.number :=
  booked.numbered.sublist List.filter_sublist

end Booked

/-- A turn keeps the queue lined up. -/
theorem lined_step {turn : Turn α} (booked : Booked crew.pool crew.log)
    (lined : Lined crew.pool.queue) (moved : crew.step turn = some next) :
    Lined next.pool.queue := by
  cases step_does moved with
  | accepted priority job running place =>
    refine lined.enqueue fun other member => ?_
    have earlier := booked.number_lt (booked.accepted_of_queued member)
    exact Nat.ne_of_gt earlier
  | took ticket rest on free queue =>
    rw [queue] at lined
    exact lined.of_cons
  | _ => exact lined

theorem lined {turns : List (Turn α)} (reached : (create name size).steps turns = some crew) :
    Lined crew.pool.queue := by
  have keeps : ∀ {crew next : Crew α} {turn},
      Booked crew.pool crew.log ∧ Lined crew.pool.queue → crew.step turn = some next →
      Booked next.pool next.log ∧ Lined next.pool.queue :=
    fun ⟨booked, lined⟩ moved => ⟨booked.step moved, lined_step booked lined moved⟩
  have nothing : Lined (create name size : Crew α).pool.queue := List.Pairwise.nil
  exact (steps_induction keeps ⟨.create, nothing⟩ reached).2

/-- **The queue is a stable sort of what waits.** -/
theorem queue_eq {turns : List (Turn α)} (reached : (create name size).steps turns = some crew) :
    crew.pool.queue = byPriority crew.waiting := by
  have booked := booked reached
  have same : crew.pool.queue.Perm (byPriority crew.waiting) :=
    booked.waiting_perm.symm.trans (Ticket.byPriority_perm _).symm
  exact (lined reached).unique (Ticket.lined_byPriority booked.waiting_numbered) same

/-! ### The turns of the workers -/

/-- Accepted jobs stay accepted. -/
theorem accepted_prefix_step {turn : Turn α} (moved : crew.step turn = some next) :
    Log.accepted crew.log <+: Log.accepted next.log := by
  cases step_does moved <;> simp

theorem accepted_prefix {turns : List (Turn α)} (reached : crew.steps turns = some after) :
    Log.accepted crew.log <+: Log.accepted after.log := by
  induction turns generalizing crew with
  | nil =>
    cases reached
    exact List.prefix_rfl
  | cons turn rest hyp =>
    obtain ⟨next, moved, reached⟩ := Option.bind_eq_some_iff.mp reached
    exact (accepted_prefix_step moved).trans (hyp reached)

/-- A turn that adds no job at most takes the head of the queue. -/
theorem taken_step {turn : Turn α} (moved : crew.step turn = some next)
    (same : Log.accepted next.log = Log.accepted crew.log) :
    Log.taken next.log ++ next.pool.queue = Log.taken crew.log ++ crew.pool.queue := by
  cases step_does moved with
  | accepted priority job running place => simp at same
  | took ticket rest on free queue => simp [queue]
  | refused | finished => simp
  | _ => rfl

/-- Jobs to which none is added are taken as they stand in the queue. -/
theorem taken_steps {turns : List (Turn α)} (reached : crew.steps turns = some after)
    (same : Log.accepted after.log = Log.accepted crew.log) :
    Log.taken after.log ++ after.pool.queue = Log.taken crew.log ++ crew.pool.queue := by
  induction turns generalizing crew with
  | nil =>
    cases reached
    rfl
  | cons turn rest hyp =>
    obtain ⟨next, moved, reached⟩ := Option.bind_eq_some_iff.mp reached
    have fewer := accepted_prefix_step moved
    -- nothing was added in the end, so nothing was added by this turn
    have here : Log.accepted next.log = Log.accepted crew.log := by
      have more := accepted_prefix reached
      rw [same] at more
      exact more.eq_of_length_le fewer.length_le
    exact (hyp reached (same.trans here.symm)).trans (taken_step moved here)

/-- A pool that is closing goes on closing until the shutdown returns, and takes no job in. -/
theorem closing_step {turn : Turn α} (closing : crew.pool.phase = .closing)
    (moved : crew.step turn = some next) (stays : turn ≠ .join) :
    next.pool.phase = .closing ∧ Log.accepted next.log = Log.accepted crew.log := by
  cases step_does moved with
  | started off => simp [Pool.hasWorkers, closing] at off
  | accepted priority job running place => simp [Pool.isRunning, closing] at running
  | closed opened => simp [closing] at opened
  | joined => exact absurd rfl stays
  | _ => simp [closing]

theorem closing_steps {turns : List (Turn α)} (closing : crew.pool.phase = .closing)
    (stays : .join ∉ turns) (reached : crew.steps turns = some after) :
    after.pool.phase = .closing ∧ Log.accepted after.log = Log.accepted crew.log := by
  induction turns generalizing crew with
  | nil =>
    cases reached
    exact ⟨closing, rfl⟩
  | cons turn rest hyp =>
    rw [List.mem_cons, not_or] at stays
    obtain ⟨next, moved, reached⟩ := Option.bind_eq_some_iff.mp reached
    obtain ⟨closing, same⟩ := closing_step closing moved (Ne.symm stays.1)
    exact (hyp closing stays.2 reached).imp_right fun last => last.trans same

/-- The jobs that ended, in that order. -/
def done (crew : Crew α) : List (Ticket α) :=
  (Log.ended crew.log).map Prod.fst

/-- A worker that is alone ends each job before it takes the next. -/
theorem alone_step {turn : Turn α} (manned : crew.Manned) (one : crew.pool.size.workers = 1)
    (order : crew.done ++ crew.pool.running = Log.taken crew.log)
    (moved : crew.step turn = some next) :
    next.done ++ next.pool.running = Log.taken next.log := by
  unfold done at order ⊢
  cases step_does moved with
  | accepted | refused => simpa using order
  | took ticket rest on free queue => simp [← order]
  | finished place ticket ending found =>
    -- the job that ends is the only one
    obtain ⟨bound, rfl⟩ := List.getElem?_eq_some_iff.mp found
    have most := manned.hands
    rw [one] at most
    obtain ⟨only, single⟩ := List.length_eq_one_iff.mp (by omega : crew.pool.running.length = 1)
    obtain rfl : place = 0 := by omega
    simpa [single] using order
  | _ => exact order

theorem size_step {turn : Turn α} (moved : crew.step turn = some next) :
    next.pool.size = crew.pool.size := by
  cases step_does moved <;> rfl

theorem alone {turns : List (Turn α)} (reached : (create name size).steps turns = some crew)
    (one : crew.pool.size.workers = 1) :
    crew.done ++ crew.pool.running = Log.taken crew.log := by
  have keeps : ∀ {crew next : Crew α} {turn},
      crew.Manned ∧ (crew.pool.size.workers = 1 →
        crew.done ++ crew.pool.running = Log.taken crew.log) → crew.step turn = some next →
      next.Manned ∧ (next.pool.size.workers = 1 →
        next.done ++ next.pool.running = Log.taken next.log) := by
    intro crew next turn ⟨manned, order⟩ moved
    refine ⟨manned.step moved, fun one => ?_⟩
    rw [size_step moved] at one
    exact alone_step manned one (order one) moved
  exact (steps_induction keeps ⟨manned_create, fun _ => rfl⟩ reached).2 one

/-! ### The order of service -/

/-- In which order a pool serves the jobs that wait. -/
structure Serves (crew : Crew α) : Prop where
  queued : crew.pool.queue = byPriority crew.waiting
  /-- A worker takes a job such that no job that waits has a lower priority number, and none that
  was submitted earlier has the same one. -/
  least : ∀ next, crew.step .take = some next → ∃ ticket earlier later,
    crew.waiting = earlier ++ ticket :: later ∧ next.waiting = earlier ++ later ∧
      next.log = crew.log ++ [.taken ticket] ∧
      (∀ other ∈ earlier, ticket.priority < other.priority) ∧
      ∀ other ∈ later, ticket.priority ≤ other.priority
  /-- A worker finds a job if one waits. -/
  finds : crew.hasFree = true → crew.pool.hasWorkers = true → crew.waiting ≠ [] →
    ∃ next, crew.step .take = some next
  /-- Jobs to which none is added are taken in the order of a stable sort by their priority
  numbers. -/
  batch : ∀ turns after, crew.steps turns = some after →
    Log.accepted after.log = Log.accepted crew.log →
    Log.taken after.log ++ byPriority after.waiting =
      Log.taken crew.log ++ byPriority crew.waiting
  /-- A single worker does them in this order, one after the other. -/
  single : crew.pool.size.workers = 1 → ∀ turns after, crew.steps turns = some after →
    Log.accepted after.log = Log.accepted crew.log →
    after.pool.running.length ≤ 1 ∧
      after.done ++ after.pool.running ++ byPriority after.waiting =
        crew.done ++ crew.pool.running ++ byPriority crew.waiting
  /-- A shutdown that returns has had all of them done. -/
  drained : crew.pool.phase = .closing → ∀ turns after, .join ∉ turns →
    crew.steps (turns ++ [.join]) = some after →
    Log.taken after.log = Log.taken crew.log ++ byPriority crew.waiting ∧
      (crew.pool.size.workers = 1 →
        after.done = crew.done ++ crew.pool.running ++ byPriority crew.waiting)

theorem reached_more {turns more : List (Turn α)}
    (reached : (create name size).steps turns = some crew) (further : crew.steps more = some after) :
    (create name size).steps (turns ++ more) = some after := by
  rw [steps_append, reached]
  exact further

/-- The head of the queue is the least of the jobs that wait, and the earliest of these. -/
theorem take_least {turns : List (Turn α)} (reached : (create name size).steps turns = some crew)
    (moved : crew.step .take = some next) : ∃ ticket earlier later,
      crew.waiting = earlier ++ ticket :: later ∧ next.waiting = earlier ++ later ∧
        next.log = crew.log ++ [.taken ticket] ∧
        (∀ other ∈ earlier, ticket.priority < other.priority) ∧
        ∀ other ∈ later, ticket.priority ≤ other.priority := by
  have booked := booked reached
  have lined := lined reached
  have booked' := booked.step moved
  cases step_does moved with
  | took ticket rest on free queue =>
    have waits : crew.waiting.Perm (ticket :: rest) := queue ▸ booked.waiting_perm
    obtain ⟨earlier, later, whole⟩ :=
      List.append_of_mem (waits.mem_iff.mpr List.mem_cons_self)
    rw [whole] at waits
    have others : (earlier ++ later).Perm rest :=
      (List.perm_middle.symm.trans waits).cons_inv
    have numbered := booked.waiting_numbered
    rw [whole] at numbered
    obtain ⟨_, behind, across⟩ := List.pairwise_append.mp numbered
    rw [queue] at lined
    have first : ∀ other ∈ earlier ++ later, ticket.ahead other = true := fun other member =>
      List.rel_of_pairwise_cons lined (others.mem_iff.mp member)
    refine ⟨ticket, earlier, later, whole, ?_, rfl, fun other member => ?_, fun other member => ?_⟩
    · -- both stand in the order of their submission
      have numbered' : (earlier ++ later).Pairwise fun first second =>
          first.number < second.number :=
        numbered.sublist ((List.sublist_cons_self ticket later).append_left earlier)
      have same := booked'.waiting_perm.trans others.symm
      exact same.eq_of_pairwise (fun _ _ _ _ one two => absurd two (Nat.lt_asymm one))
        booked'.waiting_numbered numbered'
    · have sooner := across other member ticket List.mem_cons_self
      have ahead := Ticket.ahead_iff.mp (first other (List.mem_append_left _ member))
      omega
    · have ahead := Ticket.ahead_iff.mp (first other (List.mem_append_right _ member))
      omega

/-- A worker without a job finds one if a job waits. -/
theorem take_finds {turns : List (Turn α)} (reached : (create name size).steps turns = some crew)
    (free : crew.hasFree = true) (on : crew.pool.hasWorkers = true) (waits : crew.waiting ≠ []) :
    ∃ next, crew.step .take = some next := by
  cases queue : crew.pool.queue with
  | nil =>
    have still := (booked reached).waiting_perm
    rw [queue, List.perm_nil] at still
    exact absurd still waits
  | cons ticket rest =>
    have idle : crew.pool.hasIdleWorker = true := by
      have free := of_decide_eq_true free
      simp only [Pool.hasIdleWorker, on, Bool.true_and, decide_eq_true_iff]
      omega
    simp [step, Pool.take?, queue, free, idle]

/-- **Of the jobs that wait, the one with the least priority number is taken first, and the earliest
of those; a single worker does what waits in the order of a stable sort.** -/
theorem serves {turns : List (Turn α)} (reached : (create name size).steps turns = some crew) :
    Serves crew := by
  have queued := queue_eq reached
  have batch : ∀ more after, crew.steps more = some after →
      Log.accepted after.log = Log.accepted crew.log →
      Log.taken after.log ++ byPriority after.waiting =
        Log.taken crew.log ++ byPriority crew.waiting := by
    intro more after further same
    rw [← queue_eq (reached_more reached further), ← queued]
    exact taken_steps further same
  have single : crew.pool.size.workers = 1 → ∀ more after, crew.steps more = some after →
      Log.accepted after.log = Log.accepted crew.log → after.pool.running.length ≤ 1 ∧
        after.done ++ after.pool.running ++ byPriority after.waiting =
          crew.done ++ crew.pool.running ++ byPriority crew.waiting := by
    intro one more after further same
    have reached' := reached_more reached further
    have kept : after.pool.size = crew.pool.size := steps_induction
      (P := fun other => other.pool.size = crew.pool.size)
      (fun same moved => (size_step moved).trans same) rfl further
    have one' : after.pool.size.workers = 1 := kept ▸ one
    refine ⟨?_, ?_⟩
    · have most := (manned reached').hands
      omega
    · rw [alone reached one, alone reached' one']
      exact batch more after further same
  exact {
    queued := queued
    least := fun next => take_least reached
    finds := take_finds reached
    batch := batch
    single := single
    drained := fun closing more after stays returned => by
      rw [steps_append] at returned
      obtain ⟨last, wound, returned⟩ := Option.bind_eq_some_iff.mp returned
      obtain ⟨joined, moved, returned⟩ := Option.bind_eq_some_iff.mp returned
      cases returned
      obtain ⟨closing', same⟩ := closing_steps closing stays wound
      have reached' := reached_more reached wound
      cases step_does moved with
      | joined _ all =>
        obtain ⟨queue, running⟩ := (manned reached').drained closing' all
        rw [queue_eq reached'] at queue
        refine ⟨?_, fun one => ?_⟩
        · have taken := batch more last wound same
          rwa [queue, List.append_nil] at taken
        · have done := (single one more last wound same).2
          rwa [queue, running, List.append_nil, List.append_nil] at done }

/-- A single worker, a restart, and a shutdown while jobs of equal and of different priorities
wait. -/
def backlog : List (Turn String) :=
  [.start, .submit 2 "early", .take, .finish 0 .completed, .close, .leave, .join, .start,
    .submit 4 "first", .take, .submit 7 "second", .submit 1 "third", .submit 7 "fourth",
    .submit 0 "fifth", .submit 1 "sixth", .close]

theorem serves_backlog : ∃ crew, (create "pool" ⟨1, 8⟩).steps backlog = some crew ∧ Serves crew ∧
    crew.pool.phase = .closing ∧ crew.pool.size.workers = 1 ∧ crew.waiting.map Ticket.job =
      ["second", "third", "fourth", "fifth", "sixth"] ∧
    crew.pool.queue.map Ticket.job = ["fifth", "third", "sixth", "second", "fourth"] := by
  have goes : ((create "pool" ⟨1, 8⟩).steps backlog).any (fun crew => decide
      (crew.pool.phase = .closing ∧ crew.pool.size.workers = 1 ∧ crew.waiting.map Ticket.job =
        ["second", "third", "fourth", "fifth", "sixth"] ∧
      crew.pool.queue.map Ticket.job = ["fifth", "third", "sixth", "second", "fourth"])) = true := by
    decide +kernel
  obtain ⟨crew, reached, ends⟩ := (Option.any_eq_true _ _).mp goes
  exact ⟨crew, reached, serves reached, of_decide_eq_true ends⟩

end Crew

end TableMigration
