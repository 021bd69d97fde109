/-
**Every move is a step.**

* `Pool.jobs_work`, `Pools.jobs_set` — what a worker does to the jobs of its pool, and what this
  means for the jobs of all pools.
* `Run.exists_of_advance` — a move of the scheduling thread is the next of its duties.
* `Run.step_ledger` — every move of a run is a step of its ledger, with the acts of the move, for
  engines that answer as allowed.
-/

import TableMigration.Proofs.Ledger

namespace TableMigration

/-! ### Jobs in pools -/

namespace Pool

variable {α : Type} {pool : Pool α}

/-- The ticket at a place, with what stands before and behind it. -/
theorem split_running {place : Nat} {ticket : Ticket α} (found : pool.running[place]? = some ticket) :
    ∃ before after, pool.running = before ++ ticket :: after ∧ place = before.length := by
  obtain ⟨within, rfl⟩ := List.getElem?_eq_some_iff.mp found
  refine ⟨pool.running.take place, pool.running.drop (place + 1), ?_, ?_⟩
  · rw [List.getElem_cons_drop, List.take_append_drop]
  · rw [List.length_take, Nat.min_eq_left (Nat.le_of_lt within)]

theorem jobs_submit_accepted (priority : Nat) (job : α) (open_ : pool.refusal? = none) :
    (pool.submit priority job).pool.jobs = job ::ₘ pool.jobs := by
  unfold submit
  rw [open_]
  have same : ((Ticket.enqueue ⟨pool.next, priority, job⟩ pool.queue).map Ticket.job : Multiset α) =
      job ::ₘ (pool.queue.map Ticket.job : Multiset α) :=
    Multiset.coe_eq_coe.mpr ((Ticket.enqueue_perm _ _).map Ticket.job)
  show (_ : Multiset α) + _ = _
  rw [same, Multiset.cons_add]
  rfl

theorem refusal_submit (priority : Nat) (job : α) :
    (pool.submit priority job).refusal = pool.refusal? := by
  unfold submit
  split <;> rename_i found <;> rw [found]

theorem jobs_submit_refused (priority : Nat) (job : α) {error : PoolError}
    (refused : pool.refusal? = some error) : (pool.submit priority job).pool.jobs = pool.jobs := by
  unfold submit
  rw [refused]
  cases error <;> rfl

theorem length_submit_accepted (priority : Nat) (job : α) (open_ : pool.refusal? = none) :
    (pool.submit priority job).pool.queue.length = pool.queue.length + 1 := by
  unfold submit
  rw [open_]
  exact (Ticket.enqueue_perm _ _).length_eq

theorem queue_submit_refused (priority : Nat) (job : α) {error : PoolError}
    (refused : pool.refusal? = some error) : (pool.submit priority job).pool.queue = pool.queue := by
  unfold submit
  rw [refused]
  cases error <;> rfl

/-- Only a free worker takes a job, and it takes the first one. -/
theorem take_eq {ticket : Ticket α} {after : Pool α} (taken : pool.take? = some (ticket, after)) :
    pool.hasIdleWorker = true ∧ ∃ rest, pool.queue = ticket :: rest ∧
      after = { pool with queue := rest, running := pool.running ++ [ticket] } := by
  unfold take? at taken
  split at taken
  · cases taken
  · rename_i head rest queue
    split at taken
    · rename_i idle
      cases taken
      exact ⟨idle, rest, queue, rfl⟩
    · cases taken

/-- A free worker takes a job if there is one. -/
theorem take_of_ready {ticket : Ticket α} {rest : List (Ticket α)} (idle : pool.hasIdleWorker = true)
    (queue : pool.queue = ticket :: rest) : pool.take? =
      some (ticket, { pool with queue := rest, running := pool.running ++ [ticket] }) := by
  unfold take?
  rw [queue]
  dsimp only
  rw [if_pos idle]

theorem jobs_take {ticket : Ticket α} {after : Pool α} (taken : pool.take? = some (ticket, after)) :
    after.jobs = pool.jobs := by
  obtain ⟨_, rest, waiting, rfl⟩ := take_eq taken
  unfold jobs
  rw [waiting, Multiset.coe_add, Multiset.coe_add, Multiset.coe_eq_coe]
  simp only [List.map_append, List.map_cons, List.map_nil]
  rw [← List.append_assoc]
  exact List.perm_append_comm

theorem jobs_close (pool : Pool α) : pool.close.jobs = pool.jobs := by
  unfold close
  split <;> rfl

theorem jobs_join {after : Pool α} (joined : pool.join? = some after) : after.jobs = pool.jobs := by
  unfold join? at joined
  split at joined
  · cases joined
    rfl
  · cases joined

/-- A worker carries one job on: the job is exchanged, or dropped when it leaves. -/
theorem jobs_work {place : Nat} {ticket : Ticket α} (found : pool.running[place]? = some ticket) :
    ∃ others, pool.jobs = ticket.job ::ₘ others ∧
      (∀ job, (pool.amend place job).jobs = job ::ₘ others) ∧
      ∀ ending, (pool.finish place ending).jobs = others := by
  obtain ⟨before, after, split, rfl⟩ := split_running found
  refine ⟨(pool.queue.map Ticket.job : Multiset α) + (before ++ after).map Ticket.job, ?_, ?_, ?_⟩
  · unfold jobs
    rw [split, ← Multiset.add_cons, Multiset.cons_coe]
    congr 1
    exact Multiset.coe_eq_coe.mpr (List.perm_middle.map Ticket.job)
  · intro job
    unfold jobs amend
    rw [← Multiset.add_cons, Multiset.cons_coe]
    congr 1
    refine Multiset.coe_eq_coe.mpr ?_
    show (List.map Ticket.job (pool.running.modify before.length _)).Perm _
    rw [split, List.modify_eq_take_drop, List.take_left, List.drop_left]
    exact List.perm_middle.map Ticket.job
  · intro ending
    unfold jobs finish
    rw [if_pos (by rw [split, List.length_append, List.length_cons]; omega)]
    show _ + ((List.map Ticket.job (pool.running.eraseIdx before.length) : List α) : Multiset α) = _
    rw [split, List.eraseIdx_append_of_length_le (Nat.le_refl _), Nat.sub_self,
      List.eraseIdx_cons_zero]

end Pool

/-- The jobs of one pool stand beside those of the others. -/
theorem Pools.jobs_set (pools : Pools) (engine : Engine) :
    ∃ others, pools.jobs = (pools.get engine).jobs + others ∧
      ∀ pool, (pools.set engine pool).jobs = pool.jobs + others := by
  cases engine with
  | source =>
    exact ⟨pools.destination.jobs + pools.validation.jobs, Multiset.add_assoc _ _ _,
      fun pool => Multiset.add_assoc _ _ _⟩
  | destination =>
    refine ⟨pools.source.jobs + pools.validation.jobs, ?_, fun pool => ?_⟩
    · show pools.source.jobs + pools.destination.jobs + _ = pools.destination.jobs + _
      rw [Multiset.add_comm pools.source.jobs, Multiset.add_assoc]
    · show pools.source.jobs + pool.jobs + pools.validation.jobs = pool.jobs + _
      rw [Multiset.add_comm pools.source.jobs, Multiset.add_assoc]
  | validation =>
    exact ⟨pools.source.jobs + pools.destination.jobs, Multiset.add_comm _ _,
      fun pool => Multiset.add_comm _ _⟩

theorem Pools.jobs_set_of_eq {pools : Pools} {engine : Engine} {pool : Pool Job}
    (same : pool.jobs = (pools.get engine).jobs) : (pools.set engine pool).jobs = pools.jobs := by
  obtain ⟨others, all, changed⟩ := pools.jobs_set engine
  rw [changed, all, same]

/-! ### What the parts of a move leave alone -/

namespace Run

variable {σ : Type} {run after : Run σ}

/-- What happens beside the ledger: events, reports and the state of stores and engines. -/
structure Aside (run after : Run σ) : Prop where
  ledger : after.ledger = run.ledger
  pools : after.scheduler.pools = run.scheduler.pools
  listed : after.listed = run.listed
  store : after.scheduler.store = run.scheduler.store
  verifies : after.scheduler.verifiesItself = run.scheduler.verifiesItself

theorem Aside.refl (run : Run σ) : Aside run run :=
  ⟨rfl, rfl, rfl, rfl, rfl⟩

theorem Aside.trans {last : Run σ} (first : Aside run after) (second : Aside after last) :
    Aside run last :=
  ⟨second.ledger.trans first.ledger, second.pools.trans first.pools,
    second.listed.trans first.listed, second.store.trans first.store,
    second.verifies.trans first.verifies⟩

theorem aside_tell (run : Run σ) (notices : List Notice) : Aside run (run.tell notices) :=
  ⟨rfl, rfl, rfl, rfl, rfl⟩

theorem aside_report (run : Run σ) (report : Report) : Aside run { run with report := report } :=
  ⟨rfl, rfl, rfl, rfl, rfl⟩

theorem aside_deliver (engines : Engines σ) (run : Run σ) (number : Nat) (delivery : Delivery) :
    Aside run (run.deliver engines number delivery) := by
  unfold deliver
  split
  · exact .refl run
  · dsimp only
    split
    · unfold noteFailure
      split <;> exact ⟨rfl, rfl, rfl, rfl, rfl⟩
    · exact ⟨rfl, rfl, rfl, rfl, rfl⟩

theorem aside_announce (run : Run σ) (number : Nat) (changed : Option Progress) :
    Aside run (run.announce number changed) := by
  unfold announce
  split
  · split
    · exact aside_tell run _
    · exact .refl run
  · exact .refl run

theorem aside_callEngine (engines : Engines σ) (run : Run σ) (number : Nat) (task : Task)
    (action : Action) : Aside run (run.callEngine engines number task action).2 := by
  unfold callEngine
  split <;> exact ⟨rfl, rfl, rfl, rfl, rfl⟩

theorem aside_write (engines : Engines σ) (run : Run σ) (write : Write)
    (refused : String → Notice) : Aside run (run.write engines write refused) := by
  unfold Run.write
  split
  · exact .refl run
  · dsimp only
    split <;> exact ⟨rfl, rfl, rfl, rfl, rfl⟩

theorem aside_giveUp (engines : Engines σ) (run : Run σ) (key : String) (group : TableGroup) :
    Aside run (run.giveUp engines key group) := by
  unfold giveUp
  dsimp only
  split
  · refine Aside.trans ?_ (aside_write engines _ _ _)
    exact ⟨rfl, rfl, rfl, rfl, rfl⟩
  · exact ⟨rfl, rfl, rfl, rfl, rfl⟩

/-- Finishing a table changes its group and nothing else of the ledger. -/
theorem aside_finishTable (engines : Engines σ) (run : Run σ) (key : String)
    (group : TableGroup) :
    Aside { run with tables := run.tables.put key { group with finished := true } }
      (run.finishTable engines key group) := by
  unfold finishTable
  dsimp only
  split
  · refine Aside.trans (Aside.trans ?_ (aside_write engines _ _ _)) (aside_report _ _)
    exact ⟨rfl, rfl, rfl, rfl, rfl⟩
  · refine Aside.trans (Aside.trans ?_ (aside_write engines _ _ _))
      (.trans (aside_tell _ _) (aside_report _ _))
    exact ⟨rfl, rfl, rfl, rfl, rfl⟩

/-! ### What a worker does -/

/-- A report changes the task that it is about. -/
theorem reportProgress_of_some {number : Nat} {task : Task} (found : run.tasks[number]? = some task)
    (action : Action) (progress : Progress) :
    run.reportProgress number action progress =
      ((run.setTask number (task.update action progress).task).tell
        (task.update action progress).notices, (task.update action progress).changed,
        (task.update action progress).deliveries) := by
  unfold reportProgress
  rw [found]

theorem set_of_getElem? {α : Type} {items : List α} {place : Nat} {item : α}
    (found : items[place]? = some item) : items.set place item = items := by
  obtain ⟨_, rfl⟩ := List.getElem?_eq_some_iff.mp found
  exact List.set_getElem_self _

theorem keepCounts_of_some {number : Nat} {task : Task} (found : run.tasks[number]? = some task)
    (action : Action) (execution : Execution) :
    run.keepCounts number action execution =
      run.setTask number (task.withCounts action execution) := by
  unfold keepCounts Task.withCounts
  rw [found]
  cases execution.counts with
  | none =>
    show run = { run with tasks := run.tasks.set number task }
    rw [set_of_getElem? found]
  | some counts =>
    simp only [Option.bind_some]
    cases task.keepCounts action task.table.fullName counts with
    | none =>
      show run = { run with tasks := run.tasks.set number task }
      rw [set_of_getElem? found]
    | some kept => rfl

theorem keepValidation_of_some {number : Nat} {task : Task}
    (found : run.tasks[number]? = some task) (execution : Execution) :
    run.keepValidation number execution = run.setTask number (task.withValidation execution) := by
  unfold keepValidation Task.withValidation
  rw [found]
  cases execution.validation with
  | none =>
    show run = { run with tasks := run.tasks.set number task }
    rw [set_of_getElem? found]
  | some validation =>
    simp only [Option.bind_some]
    cases task.keepValidation validation with
    | none =>
      show run = { run with tasks := run.tasks.set number task }
      rw [set_of_getElem? found]
    | some kept => rfl

/-- What a worker does in a stage, and the stage that follows. -/
inductive Does (engines : Engines σ) (run : Run σ) (number : Nat) (task : Task) (action : Action) :
    Stage → Run σ → Stage → Prop
  | call :
    Does engines run number task action .call (run.callEngine engines number task action).2
      (.keepCounts (run.callEngine engines number task action).1)
  | keepCounts (execution : Execution) :
    Does engines run number task action (.keepCounts execution)
      (run.setTask number (task.withCounts action execution)) (.keepValidation execution)
  | keepValidation (execution : Execution) :
    Does engines run number task action (.keepValidation execution)
      (run.setTask number (task.withValidation execution)) (.report execution)
  | report (execution : Execution) :
    Does engines run number task action (.report execution)
      ((run.setTask number (task.update action execution.progress).task).tell
        (task.update action execution.progress).notices)
      (.deliver execution (task.update action execution.progress).changed
        (task.update action execution.progress).deliveries)
  | deliver (execution : Execution) (changed : Option Progress) (delivery : Delivery)
      (rest : List Delivery) :
    Does engines run number task action (.deliver execution changed (delivery :: rest))
      (run.deliver engines number delivery) (.deliver execution changed rest)
  | delivered (execution : Execution) (changed : Option Progress) :
    Does engines run number task action (.deliver execution changed []) run
      (.announce execution changed)
  | announce (execution : Execution) (changed : Option Progress) :
    Does engines run number task action (.announce execution changed)
      (run.announce number changed) (.countOut execution)
  | countOut (execution : Execution) :
    Does engines run number task action (.countOut execution) run.countOut (.leave execution)

variable {engines : Engines σ} {next : Run σ}

/-- A worker goes on to the next stage of its job, or leaves. -/
theorem work_cases {engine : Engine} {place : Nat}
    (moved : run.work engines engine place = some next) :
    ∃ ticket task, (run.scheduler.pools.get engine).running[place]? = some ticket ∧
      run.tasks[ticket.job.task]? = some task ∧
      ((∃ after stage, Does engines run ticket.job.task task ticket.job.action ticket.job.stage
          after stage ∧ next = after.setPool engine ((after.scheduler.pools.get engine).amend place
            ⟨ticket.job.task, ticket.job.action, stage⟩)) ∨
        ∃ execution ending notices, ticket.job.stage = .leave execution ∧
          next = (run.setPool engine
            ((run.scheduler.pools.get engine).finish place ending)).tell notices) := by
  unfold work at moved
  split at moved
  · cases moved
  rename_i ticket number priority taskNumber action stage job
  dsimp only at moved
  split at moved
  · cases moved
  rename_i task found
  refine ⟨_, task, job, found, ?_⟩
  cases stage with
  | call =>
    cases moved
    exact .inl ⟨_, _, .call, rfl⟩
  | keepCounts execution =>
    simp only [keepCounts_of_some found] at moved
    cases moved
    exact .inl ⟨_, _, .keepCounts execution, rfl⟩
  | keepValidation execution =>
    simp only [keepValidation_of_some found] at moved
    cases moved
    exact .inl ⟨_, _, .keepValidation execution, rfl⟩
  | report execution =>
    simp only [reportProgress_of_some found] at moved
    cases moved
    exact .inl ⟨_, _, .report execution, rfl⟩
  | deliver execution changed deliveries =>
    cases deliveries with
    | nil =>
      cases moved
      exact .inl ⟨_, _, .delivered execution changed, rfl⟩
    | cons delivery rest =>
      cases moved
      exact .inl ⟨_, _, .deliver execution changed delivery rest, rfl⟩
  | announce execution changed =>
    cases moved
    exact .inl ⟨_, _, .announce execution changed, rfl⟩
  | countOut execution =>
    cases moved
    exact .inl ⟨_, _, .countOut execution, rfl⟩
  | leave execution =>
    cases moved
    exact .inr ⟨execution, _, _, rfl, rfl⟩

/-! ### Moves as steps -/

variable {answers : Nat → Task → Action → Execution → Prop}

/-- A duty that replaces a pool by one with the same jobs is a step aside. -/
theorem aside_setPool {duty : Duty} {rest : List Duty} (head : run.agenda = duty :: rest)
    (isAside : duty.isAside = true) {engine : Engine} {pool : Pool Job}
    (same : pool.jobs = (run.scheduler.pools.get engine).jobs) :
    run.ledger.Step answers [] ({ run with agenda := rest }.setPool engine pool).ledger := by
  have step : run.ledger.Step answers [] _ := .aside head isAside
  have jobs : run.ledger.jobs = _ := (Pools.jobs_set_of_eq same).symm
  rw [jobs] at step
  exact step

/-- The scheduling thread has a duty to do, and does it. -/
theorem advance_eq {duty : Duty} {rest : List Duty} (head : run.agenda = duty :: rest) :
    run.advance engines = { run with agenda := rest }.perform engines duty := by
  unfold advance
  rw [head]

/-- If the scheduling thread moves, it has a duty to do. -/
theorem exists_of_advance (moved : run.advance engines = some next) :
    ∃ duty rest, run.agenda = duty :: rest ∧
      { run with agenda := rest }.perform engines duty = some next := by
  unfold advance at moved
  split at moved
  · cases moved
  · rename_i duty rest head
    exact ⟨duty, rest, head, moved⟩

/-- A duty does nothing without the task that it is about. -/
theorem perform_absent {duty : Duty} {number : Nat} (about : duty.subject? = some number)
    (absent : run.tasks[number]? = none) : run.perform engines duty = some run := by
  cases duty with
  | collect | dispatch | submit =>
    cases about
    simp only [perform, absent]
  | refuse =>
    cases about
    simp only [perform, reportProgress, absent]
    rfl
  | _ => cases about

theorem dutyActs_absent {duty : Duty} {number : Nat} (about : duty.subject? = some number)
    (absent : run.tasks[number]? = none) : run.dutyActs duty = [] := by
  cases duty with
  | collect | refuse => rfl
  | dispatch | submit =>
    cases about
    simp only [dutyActs, absent]
  | _ => cases about

section Duties

variable {rest : List Duty}

theorem absent_ledger {duty : Duty} {number : Nat} (head : run.agenda = duty :: rest)
    (about : duty.subject? = some number) (absent : run.tasks[number]? = none)
    (performed : { run with agenda := rest }.perform engines duty = some next) :
    run.ledger.Step answers (run.dutyActs duty) next.ledger := by
  rw [dutyActs_absent about absent]
  rw [perform_absent about (by exact absent)] at performed
  cases performed
  exact .absent head about absent

theorem look_ledger {number : Nat} (head : run.agenda = .look number :: rest)
    (performed : { run with agenda := rest }.perform engines (.look number) = some next) :
    run.ledger.Step answers (run.dutyActs (.look number)) next.ledger := by
  cases performed
  show run.ledger.Step answers (if run.isEnded number then [.foundEnded number] else [])
    (Run.ledger (if run.isEnded number then _ else _))
  by_cases ended : run.isEnded number = true
  · rw [if_pos ended, if_pos ended]
    exact .lookEnded head ended
  · rw [if_neg ended, if_neg ended]
    exact .lookOn head (Bool.not_eq_true _ ▸ ended)

theorem dispatch_ledger {number : Nat} {action : Action} {task : Task}
    (head : run.agenda = .dispatch number action :: rest) (found : run.tasks[number]? = some task)
    (performed : { run with agenda := rest }.perform engines (.dispatch number action) =
      some next) :
    run.ledger.Step answers (run.dutyActs (.dispatch number action)) next.ledger := by
  simp only [perform, found] at performed
  rw [reportProgress_of_some (by exact found)] at performed
  cases performed
  simp only [dutyActs, found]
  exact .dispatch head found

/-- Submitting an action adds a job to the pool, or the pool turns it away. -/
theorem submit_ledger {number : Nat} {action : Action} {task : Task}
    (head : run.agenda = .submit number action :: rest) (found : run.tasks[number]? = some task)
    (performed : { run with agenda := rest }.perform engines (.submit number action) =
      some next) : run.ledger.Step answers (run.dutyActs (.submit number action)) next.ledger := by
  simp only [perform, found, Pool.refusal_submit] at performed
  cases refused : (run.scheduler.pools.get action.engine).refusal? with
  | none =>
    simp only [refused] at performed
    cases performed
    simp only [dutyActs, found, refused]
    obtain ⟨others, all, changed⟩ := run.scheduler.pools.jobs_set action.engine
    have jobs := changed _ |>.trans (congrArg (· + others)
      (Pool.jobs_submit_accepted action.priority (⟨number, action, .call⟩ : Job) refused))
    rw [Multiset.cons_add, ← all] at jobs
    have step : run.ledger.Step answers [] _ := .submit head found
    rw [show _ ::ₘ run.ledger.jobs = _ from jobs.symm] at step
    exact step
  | some error =>
    simp only [refused] at performed
    cases performed
    simp only [dutyActs, found, refused]
    have step : run.ledger.Step answers [.refused number action] _ := .turnAway head found
    have jobs : run.ledger.jobs = _ := (Pools.jobs_set_of_eq
      (Pool.jobs_submit_refused action.priority ⟨number, action, .call⟩ refused)).symm
    rw [jobs] at step
    exact step

theorem refuse_ledger {number : Nat} {action : Action} {task : Task}
    (head : run.agenda = .refuse number action :: rest) (found : run.tasks[number]? = some task)
    (performed : { run with agenda := rest }.perform engines (.refuse number action) =
      some next) : run.ledger.Step answers (run.dutyActs (.refuse number action)) next.ledger := by
  simp only [perform] at performed
  rw [reportProgress_of_some (by exact found)] at performed
  cases performed
  exact .refuse head found

/-- A table is finished when all of its tasks have ended, and stays as it is before. -/
theorem judge_ledger {key : String} (head : run.agenda = .judge key :: rest)
    (performed : { run with agenda := rest }.perform engines (.judge key) = some next) :
    run.ledger.Step answers (run.dutyActs (.judge key)) next.ledger := by
  cases found : run.tables.get? key with
  | none =>
    simp only [perform, found] at performed
    cases performed
    simp only [dutyActs, found]
    exact .judgeNothing head found
  | some group =>
    simp only [perform, found] at performed
    cases performed
    simp only [dutyActs, found]
    have step : run.ledger.Step answers _ _ := .judge head found
    by_cases ended : group.tasks.all (Task.endedIn run.tasks) = true
    · rw [if_pos (by exact ended)] at step
      rw [if_pos (by exact ended), (aside_finishTable ..).ledger]
      exact step
    · rw [if_neg (by exact ended)] at step
      rw [if_neg (by exact ended)]
      exact step

/-- A pass ends with every table finished, with nothing left that could happen, or with a wait. -/
theorem test_ledger (head : run.agenda = .test :: rest)
    (performed : { run with agenda := rest }.perform engines .test = some next) :
    run.ledger.Step answers [] next.ledger := by
  simp only [perform] at performed
  by_cases done : run.tables.unfinished = []
  · rw [if_pos (by rw [done]; rfl)] at performed
    cases performed
    exact .testDone head done
  · rw [if_neg (by rw [List.isEmpty_iff]; exact done)] at performed
    by_cases stuck : run.dispatched = 0 ∧ run.scheduler.inFlight = 0
        ∧ run.scheduler.completions = run.seen
    · rw [if_pos (by exact stuck)] at performed
      cases performed
      exact .testStuck head stuck
    · rw [if_neg (by exact stuck)] at performed
      cases performed
      exact .testOn head stuck

theorem giveUp_ledger {key : String} (head : run.agenda = .giveUp key :: rest)
    (performed : { run with agenda := rest }.perform engines (.giveUp key) = some next) :
    run.ledger.Step answers [] next.ledger := by
  cases found : run.tables.get? key with
  | none =>
    simp only [perform, found] at performed
    cases performed
    exact .aside head rfl
  | some group =>
    simp only [perform, found] at performed
    cases performed
    rw [(aside_giveUp ..).ledger]
    exact .aside head rfl

/-- What the scheduling thread does for a duty is a step. -/
theorem perform_ledger {duty : Duty} (head : run.agenda = duty :: rest)
    (performed : { run with agenda := rest }.perform engines duty = some next) :
    run.ledger.Step answers (run.dutyActs duty) next.ledger := by
  -- Four duties are about a task, and do nothing without it.
  have about : ∀ number, duty.subject? = some number →
      (∀ task, run.tasks[number]? = some task →
        run.ledger.Step answers (run.dutyActs duty) next.ledger) →
      run.ledger.Step answers (run.dutyActs duty) next.ledger := by
    intro number about present
    cases found : run.tasks[number]? with
    | none => exact absent_ledger head about found performed
    | some task => exact present task found
  cases duty with
  | look => exact look_ledger head performed
  | collect number =>
    refine about number rfl fun task found => ?_
    simp only [perform, found] at performed
    cases performed
    exact .collect head found
  | dispatch number => exact about number rfl fun _ found => dispatch_ledger head found performed
  | submit number => exact about number rfl fun _ found => submit_ledger head found performed
  | refuse number => exact about number rfl fun _ found => refuse_ledger head found performed
  | judge => exact judge_ledger head performed
  | test => exact test_ledger head performed
  | giveUp => exact giveUp_ledger head performed
  | beginPass =>
    cases performed
    exact .beginPass head
  | countIn =>
    cases performed
    exact .countIn head
  | countOut =>
    cases performed
    exact .countOut head
  | wait =>
    cases performed
    exact .wait head
  | deliver number delivery =>
    cases performed
    rw [(aside_deliver ..).ledger]
    exact .aside head rfl
  | announce number progress =>
    cases performed
    rw [(aside_announce ..).ledger]
    exact .aside head rfl
  | close engine =>
    cases performed
    exact aside_setPool head rfl (Pool.jobs_close _)
  | join engine =>
    simp only [perform, Option.map_eq_some_iff] at performed
    obtain ⟨stopped, joined, rfl⟩ := performed
    exact aside_setPool head rfl (Pool.jobs_join joined)
  | unlisten =>
    cases performed
    exact .unlisten head run.listed
  | conclude =>
    cases performed
    exact .aside head rfl

end Duties

/-- A duty of the scheduling thread is a step. -/
theorem advance_ledger (moved : run.advance engines = some next) :
    run.ledger.Step answers (run.acts engines .advance) next.ledger := by
  obtain ⟨duty, rest, head, performed⟩ := exists_of_advance moved
  have acts : run.acts engines .advance = run.dutyActs duty := by
    simp only [Run.acts, head, List.head?_cons, Option.toList_some, List.flatMap_singleton]
  rw [acts]
  exact perform_ledger head performed

theorem Does.pools {number : Nat} {task : Task} {action : Action} {stage later : Stage}
    (does : Does engines run number task action stage after later) :
    after.scheduler.pools = run.scheduler.pools := by
  cases does with
  | call => exact (aside_callEngine engines run number task action).pools
  | deliver execution changed delivery rest => exact (aside_deliver engines run number delivery).pools
  | announce execution changed => exact (aside_announce run number changed).pools
  | _ => rfl

/-- The stage of one job changes, and nothing else of the pools. -/
theorem ledger_amend {engine : Engine} {place : Nat} {ticket : Ticket Job}
    (found : (run.scheduler.pools.get engine).running[place]? = some ticket) :
    ∃ others, run.ledger.jobs = ticket.job ::ₘ others ∧
      (∀ (after : Run σ) (job : Job), after.scheduler.pools = run.scheduler.pools →
        (after.setPool engine ((after.scheduler.pools.get engine).amend place job)).ledger =
          { after.ledger with jobs := job ::ₘ others }) ∧
      ∀ ending, (run.setPool engine ((run.scheduler.pools.get engine).finish place ending)).ledger =
        { run.ledger with jobs := others } := by
  obtain ⟨others, all, changed⟩ := run.scheduler.pools.jobs_set engine
  obtain ⟨beside, mine, amended, finished⟩ := Pool.jobs_work found
  refine ⟨beside + others, ?_, fun after job same => ?_, fun ending => ?_⟩
  · show run.scheduler.pools.jobs = _
    rw [all, mine, Multiset.cons_add]
  · rw [← Multiset.cons_add, ← amended job, ← changed, ← same]
    rfl
  · rw [← finished ending, ← changed]
    rfl

theorem acts_work {engine : Engine} {place : Nat} {ticket : Ticket Job} {task : Task}
    (job : (run.scheduler.pools.get engine).running[place]? = some ticket)
    (found : run.tasks[ticket.job.task]? = some task) :
    run.acts engines (.work engine place) =
      if ticket.job.stage = .call then
        [.executed ticket.job.task ticket.job.action
          (run.callEngine engines ticket.job.task task ticket.job.action).1]
      else [] := by
  obtain ⟨number, priority, taskNumber, action, stage⟩ := ticket
  simp only [Run.acts, job]
  cases stage with
  | call =>
    have found' : run.tasks[taskNumber]? = some task := found
    simp only [found', if_true]
  | _ => exact (if_neg nofun).symm

/-- A worker going on with its job is a step. -/
theorem work_ledger {engine : Engine} {place : Nat}
    (moved : run.work engines engine place = some next)
    (answered : ∀ number task action,
      answers number task action (run.callEngine engines number task action).1) :
    run.ledger.Step answers (run.acts engines (.work engine place)) next.ledger := by
  obtain ⟨ticket, task, job, found, goes⟩ := work_cases moved
  rw [acts_work job found]
  obtain ⟨number, priority, taskNumber, action, stage⟩ := ticket
  obtain ⟨others, jobs, amended, finished⟩ := ledger_amend job
  rcases goes with ⟨after, later, does, rfl⟩ | ⟨execution, ending, notices, leaves, rfl⟩
  · rw [amended after _ does.pools]
    cases does with
    | call =>
      rw [(aside_callEngine engines run taskNumber task action).ledger]
      exact .execute jobs found (answered taskNumber task action)
    | keepCounts execution => exact .keepCounts jobs found
    | keepValidation execution => exact .keepValidation jobs found
    | report execution => exact .report jobs found
    | deliver execution changed delivery rest =>
      rw [(aside_deliver engines run taskNumber delivery).ledger]
      exact .follow jobs (.deliver execution changed delivery rest)
    | delivered execution changed => exact .follow jobs (.delivered execution changed)
    | announce execution changed =>
      rw [(aside_announce run taskNumber changed).ledger]
      exact .follow jobs (.announce execution changed)
    | countOut execution => exact .complete jobs
  · cases leaves
    rw [(aside_tell _ notices).ledger, finished]
    exact .leave jobs

/-- To take a job is nothing to the ledger. -/
theorem take_ledger {engine : Engine} (moved : run.takeJob engine = some next) :
    next.ledger = run.ledger := by
  simp only [takeJob, Option.map_eq_some_iff] at moved
  obtain ⟨⟨ticket, pool⟩, taken, rfl⟩ := moved
  exact congrArg (fun jobs => { run.ledger with jobs := jobs })
    (Pools.jobs_set_of_eq (Pool.jobs_take taken))

/-- **Every move is a step of the ledger.** -/
theorem step_ledger {move : Move} (moved : run.step engines move = some next)
    (answered : ∀ number task action,
      answers number task action (run.callEngine engines number task action).1) :
    run.ledger.Step answers (run.acts engines move) next.ledger := by
  cases move with
  | advance => exact advance_ledger moved
  | take engine =>
    rw [take_ledger moved]
    exact .take
  | work engine place => exact work_ledger moved answered

end Run

end TableMigration
