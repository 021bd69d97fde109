/-
**Pools that were used before.**

* `Pool.aged` — a pool with the same jobs that has given out more numbers and counted more. Whatever
  is done to the one, the same comes of the other (`Pool.submit_aged`, `Pool.take_aged`).
* `Run.recast` — a run with other pools and with other events before its own. What has nothing to do
  with pools is the same in both (`Run.deliver_recast`, `Run.finishTable_recast`).
* `Run.Renewed` — two runs that are the same but for the age of their pools. A move of the one is a
  move of the other and keeps them so (`Run.Renewed.steps`). They tell the same but for the numbers
  of jobs.
-/

import TableMigration.Proofs.Workers

namespace TableMigration

/-! ### Pools of some age -/

/-- How many numbers a pool has given out, and what it has counted. -/
structure Past where
  numbers : Nat
  stats : PoolStats

/-- The counts of two times together. -/
def PoolStats.add (first second : PoolStats) : PoolStats where
  submitted := first.submitted + second.submitted
  processed := first.processed + second.processed
  failed := first.failed + second.failed
  rejected := first.rejected + second.rejected

variable {α : Type}

/-- A ticket that comes after so many others. -/
def Ticket.aged (past : Nat) (ticket : Ticket α) : Ticket α :=
  { ticket with number := past + ticket.number }

theorem Ticket.ahead_aged (past : Nat) (first second : Ticket α) :
    (first.aged past).ahead (second.aged past) = first.ahead second := by
  unfold ahead
  have later : decide (past + first.number < past + second.number) =
      decide (first.number < second.number) := decide_eq_decide.mpr (Nat.add_lt_add_iff_left ..)
  show (_ || (_ && decide (past + first.number < past + second.number))) = _
  rw [later]
  rfl

/-- A ticket finds the same place in an older queue. -/
theorem Ticket.enqueue_aged (past : Nat) (ticket : Ticket α) (queue : List (Ticket α)) :
    (ticket.aged past).enqueue (queue.map (aged past)) =
      (ticket.enqueue queue).map (aged past) := by
  induction queue with
  | nil => rfl
  | cons head rest hyp =>
    simp only [List.map_cons, enqueue, ahead_aged]
    split
    · rfl
    · rw [hyp]
      rfl

namespace Pool

/-- A pool that has done something before. -/
def aged (past : Past) (pool : Pool α) : Pool α :=
  { pool with
    next := past.numbers + pool.next
    queue := pool.queue.map (Ticket.aged past.numbers)
    running := pool.running.map (Ticket.aged past.numbers)
    stats := past.stats.add pool.stats }

variable (past : Past) (pool : Pool α)

theorem submit_aged (priority : Nat) (job : α) : (pool.aged past).submit priority job =
    ⟨(pool.submit priority job).pool.aged past, (pool.submit priority job).refusal⟩ := by
  have refusal : (pool.aged past).refusal? = pool.refusal? := by
    unfold refusal?
    rw [show (pool.aged past).queue.length = pool.queue.length from List.length_map _]
    rfl
  unfold submit
  rw [refusal]
  split
  · rfl
  · rfl
  · show Submission.mk { pool.aged past with
        next := _
        queue := (Ticket.aged past.numbers ⟨pool.next, priority, job⟩).enqueue
          (pool.queue.map (Ticket.aged past.numbers))
        stats := _ } none = _
    rw [Ticket.enqueue_aged]
    rfl

theorem take_aged : (pool.aged past).take? =
    pool.take?.map fun (ticket, after) => (ticket.aged past.numbers, after.aged past) := by
  have idle : (pool.aged past).hasIdleWorker = pool.hasIdleWorker := by
    unfold hasIdleWorker
    rw [show (pool.aged past).running.length = pool.running.length from List.length_map _]
    rfl
  unfold take?
  rw [show (pool.aged past).queue = pool.queue.map (Ticket.aged past.numbers) from rfl]
  cases pool.queue with
  | nil => rfl
  | cons ticket rest =>
    simp only [List.map_cons, idle]
    split
    · simp [aged]
    · rfl

theorem amend_aged (place : Nat) (job : α) :
    (pool.aged past).amend place job = (pool.amend place job).aged past := by
  unfold amend aged
  dsimp only
  congr 1
  refine List.ext_getElem? fun other => ?_
  simp only [List.getElem?_modify, List.getElem?_map]
  cases pool.running[other]? with
  | none => rfl
  | some ticket =>
    simp only [Option.map_some, Option.map_eq_map]
    split <;> rfl

theorem countEnd_add (first second : PoolStats) (ending : JobEnd) :
    countEnd (first.add second) ending = first.add (countEnd second ending) := by
  cases ending <;> rfl

theorem finish_aged (place : Nat) (ending : JobEnd) :
    (pool.aged past).finish place ending = (pool.finish place ending).aged past := by
  unfold finish
  rw [show (pool.aged past).running = pool.running.map (Ticket.aged past.numbers) from rfl,
    List.length_map]
  split
  · unfold aged
    dsimp only
    rw [countEnd_add, List.eraseIdx_map]
  · rfl

theorem close_aged : (pool.aged past).close = pool.close.aged past := by
  unfold close
  show (if pool.phase = .open then _ else _) = _
  split <;> rfl

theorem join_aged : (pool.aged past).join? = pool.join?.map (aged past) := by
  have drained : (pool.aged past).isDrained = pool.isDrained := by
    show ((pool.queue.map _).isEmpty && (pool.running.map _).isEmpty) = _
    rw [List.isEmpty_map, List.isEmpty_map]
    rfl
  unfold join?
  rw [drained, show (pool.aged past).phase = pool.phase from rfl]
  by_cases ready : pool.phase = .closing ∧ pool.isDrained = true
  · rw [if_pos ready, if_pos ready]
    rfl
  · rw [if_neg ready, if_neg ready]
    rfl

end Pool

/-! ### Runs with other pools -/

/-- What a scheduler has that only its pools and the beginning of a run look at. -/
structure Shell where
  pools : Pools
  hasSource : Bool
  hasDestination : Bool

namespace Run

variable {σ : Type}

/-- The shell of the scheduler. -/
def shell (run : Run σ) : Shell :=
  ⟨run.scheduler.pools, run.scheduler.hasSource, run.scheduler.hasDestination⟩

variable (run : Run σ) (shell : Shell) (before : List Event) (engines : Engines σ)

/-- The same run in another shell, with other events before its own. -/
def recast : Run σ :=
  { run with
    scheduler := { run.scheduler with
      pools := shell.pools
      hasSource := shell.hasSource
      hasDestination := shell.hasDestination }
    events := before ++ run.events }

theorem emit_recast (events : List Event) :
    (run.recast shell before).emit events = (run.emit events).recast shell before := by
  unfold emit recast
  rw [List.append_assoc]

theorem tell_recast (notices : List Notice) :
    (run.recast shell before).tell notices = (run.tell notices).recast shell before :=
  emit_recast ..

theorem reportProgress_recast (number : Nat) (action : Action) (progress : Progress) :
    (run.recast shell before).reportProgress number action progress =
      ((run.reportProgress number action progress).1.recast shell before,
        (run.reportProgress number action progress).2) := by
  unfold reportProgress
  rw [show (run.recast shell before).tasks = run.tasks from rfl]
  cases run.tasks[number]? with
  | none => rfl
  | some task =>
    exact congrArg (·, _) (tell_recast (run.setTask number (task.update action progress).task) ..)

theorem noteFailure_recast (table : Table) :
    (run.recast shell before).noteFailure table = (run.noteFailure table).recast shell before := by
  unfold noteFailure
  rw [show (run.recast shell before).scheduler.failedTables = run.scheduler.failedTables from rfl]
  split
  · rfl
  · simp only [tell, emit, recast, List.append_assoc]

theorem deliver_recast (number : Nat) (delivery : Delivery) :
    (run.recast shell before).deliver engines number delivery =
      (run.deliver engines number delivery).recast shell before := by
  unfold deliver
  rw [show (run.recast shell before).tasks = run.tasks from rfl]
  cases run.tasks[number]? with
  | none => rfl
  | some task =>
    dsimp only
    have emitted := emit_recast
      { run with state := (task.deliver engines.backend delivery run.state).2 } shell before
      (task.deliver engines.backend delivery run.state).1
    split
    · exact (congrArg (noteFailure · _) emitted).trans (noteFailure_recast ..)
    · exact emitted

theorem announce_recast (number : Nat) (changed : Option Progress) :
    (run.recast shell before).announce number changed =
      (run.announce number changed).recast shell before := by
  unfold announce
  rw [show (run.recast shell before).tasks = run.tasks from rfl]
  split
  · split
    · exact tell_recast ..
    · rfl
  · rfl

theorem write_recast (write : Write) (refused : String → Notice) :
    (run.recast shell before).write engines write refused =
      (run.write engines write refused).recast shell before := by
  unfold Run.write
  rw [show (run.recast shell before).scheduler.store = run.scheduler.store from rfl]
  cases run.scheduler.store with
  | none => rfl
  | some store =>
    dsimp only [recast]
    split
    · simp only [emit, List.append_assoc]
    · simp only [tell, emit, List.append_assoc]

theorem recordFailure_recast (group : TableGroup) :
    (run.recast shell before).recordFailure engines group =
      (run.recordFailure engines group).recast shell before :=
  write_recast ..

/-- The run in which a table counts as finished, whatever is recorded of it. -/
def counted (key : String) (group : TableGroup) : Run σ :=
  let failed := (group.tasks.filter run.hasFailed).length
  { run with
    tables := run.tables.put key { group with finished := true }
    report := { run.report with
      failedTasks := run.report.failedTasks + failed
      succeededTasks := run.report.succeededTasks + (group.tasks.length - failed) } }

theorem finishTable_recast (key : String) (group : TableGroup) :
    (run.recast shell before).finishTable engines key group =
      (run.finishTable engines key group).recast shell before := by
  have told := tell_recast (run.counted key group) shell before
  by_cases failed : (run.counted key group).tableFailed group = true
  · have recorded : (((run.counted key group).recast shell before).tell
        [.tableFailed group.fullName]).recordFailure engines group = _ :=
      (congrArg (recordFailure engines · group) (told _)).trans (recordFailure_recast ..)
    refine (if_pos failed).trans
      (Eq.trans ?_ (congrArg (recast · shell before) (if_pos failed).symm))
    exact congrArg (fun after : Run σ => { after with report := { after.report with
      failed := after.report.failed ++ [group.fullName] } }) recorded
  · have recorded : (((run.counted key group).recast shell before).write engines
        (.status group.database group.name [] .succeeded)
        (.successUnrecorded group.fullName)).tell [.tableSucceeded group.fullName] = _ :=
      (congrArg (tell · _) (write_recast ..)).trans (tell_recast ..)
    refine (if_neg failed).trans
      (Eq.trans ?_ (congrArg (recast · shell before) (if_neg failed).symm))
    exact congrArg (fun after : Run σ => { after with report := { after.report with
      succeeded := after.report.succeeded ++ [group.fullName] } }) recorded

theorem giveUp_recast (key : String) (group : TableGroup) :
    (run.recast shell before).giveUp engines key group =
      (run.giveUp engines key group).recast shell before := by
  unfold giveUp
  rw [tell_recast]
  have recorded := recordFailure_recast { run.tell [.tableStuck key] with
    report := { run.report with unfinished := run.report.unfinished ++ [key] } }
    shell before engines group
  by_cases failed : run.tableFailed group = true
  · exact (if_pos failed).trans
      (recorded.trans (congrArg (recast · shell before) (if_pos failed).symm))
  · refine (if_neg failed).trans
      (Eq.trans ?_ (congrArg (recast · shell before) (if_neg failed).symm))
    rfl

theorem callEngine_recast (number : Nat) (task : Task) (action : Action) :
    (run.recast shell before).callEngine engines number task action =
      ((run.callEngine engines number task action).1,
        (run.callEngine engines number task action).2.recast shell before) := by
  unfold callEngine
  dsimp only [recast]
  by_cases own : action.engine = .validation ∧ run.scheduler.verifiesItself = true
  · simp only [if_pos own, emit, List.append_assoc]
  · simp only [if_neg own, emit, List.append_assoc]

theorem keepCounts_recast (number : Nat) (action : Action) (execution : Execution) :
    (run.recast shell before).keepCounts number action execution =
      (run.keepCounts number action execution).recast shell before := by
  unfold keepCounts
  rw [show (run.recast shell before).tasks = run.tasks from rfl]
  split
  · split <;> rfl
  · rfl

theorem keepValidation_recast (number : Nat) (execution : Execution) :
    (run.recast shell before).keepValidation number execution =
      (run.keepValidation number execution).recast shell before := by
  unfold keepValidation
  rw [show (run.recast shell before).tasks = run.tasks from rfl]
  split
  · split <;> rfl
  · rfl

/-! ### Moves -/

/-- A duty that has nothing to do with a pool is the same. -/
theorem perform_recast {duty : Duty} (submits : ∀ number action, duty ≠ .submit number action)
    (closes : ∀ engine, duty ≠ .close engine) (joins : ∀ engine, duty ≠ .join engine) :
    (run.recast shell before).perform engines duty =
      (run.perform engines duty).map fun next => next.recast shell before := by
  have tasks : (run.recast shell before).tasks = run.tasks := rfl
  have tables : (run.recast shell before).tables = run.tables := rfl
  cases duty with
  | submit number action => exact absurd rfl (submits number action)
  | close engine => exact absurd rfl (closes engine)
  | join engine => exact absurd rfl (joins engine)
  | beginPass | countIn | countOut | wait | unlisten => rfl
  | look number =>
    refine congrArg some ?_
    show (if run.isEnded number then _ else _) = _
    split <;> rfl
  | collect number =>
    simp only [perform, tasks]
    cases run.tasks[number]? <;> rfl
  | dispatch number action =>
    simp only [perform, tasks]
    cases run.tasks[number]? with
    | none => rfl
    | some task =>
      dsimp only
      rw [tell_recast, reportProgress_recast]
      rfl
  | refuse number action =>
    simp only [perform, reportProgress_recast]
    rfl
  | deliver number delivery => exact congrArg some (deliver_recast ..)
  | announce number progress => exact congrArg some (announce_recast ..)
  | judge key =>
    simp only [perform, tables]
    cases run.tables.get? key with
    | none => rfl
    | some group =>
      refine congrArg some ?_
      dsimp only
      rw [finishTable_recast]
      show (if group.tasks.all run.isEnded then _ else _) = _
      split <;> rfl
  | test =>
    refine congrArg some ?_
    show (if run.tables.unfinished.isEmpty then _ else if run.dispatched = 0 ∧
      run.scheduler.inFlight = 0 ∧ run.scheduler.completions = run.seen then _ else _) = _
    split
    · rfl
    · split <;> rfl
  | giveUp key =>
    simp only [perform, tables]
    cases run.tables.get? key with
    | none => rfl
    | some group => exact congrArg some (giveUp_recast ..)
  | conclude => exact congrArg some (tell_recast ..)

end Run

/-! ### Numbers of jobs -/

/-- A notice without the number of a job. -/
def Notice.unnumbered : Notice → Notice
  | .jobFailed _ pool reason => .jobFailed 0 pool reason
  | .jobThrew _ pool reason => .jobThrew 0 pool reason
  | other => other

/-- An event without the number of a job. -/
def Event.unnumbered : Event → Event
  | .notice told => .notice told.unnumbered
  | other => other

/-- Whether an event is a line for the operators, and no call. -/
def Event.isNotice : Event → Bool
  | .notice _ => true
  | _ => false

/-- The calls among some events have no numbers of jobs. -/
theorem Event.calls_eq (events : List Event) : events.filter (fun event => !event.isNotice) =
    (events.map Event.unnumbered).filter fun event => !event.isNotice := by
  induction events with
  | nil => rfl
  | cons event rest hyp =>
    cases event with
    | notice told => exact hyp
    | _ => exact congrArg (_ :: ·) hyp

/-- An older pool tells the same of the end of a job, but for its number. -/
theorem Pool.endNotices_aged (past : Past) (pool : Pool α) (number : Nat) (ending : JobEnd) :
    (((pool.aged past).endNotices (past.numbers + number) ending).map Event.notice).map
        Event.unnumbered =
      ((pool.endNotices number ending).map Event.notice).map Event.unnumbered := by
  cases ending <;> rfl

/-! ### Runs with older pools -/

namespace Run

variable {σ : Type} {past : Engine → Past} {first second : Run σ}

/-- Whether a run is the same as another one, but for pools that have done something before, and for
the numbers of jobs that are told. -/
inductive Renewed (past : Engine → Past) : Run σ → Run σ → Prop
  | intro (core : Run σ) {shell shell' : Shell} {before before' : List Event}
      (heard : before'.map Event.unnumbered = before.map Event.unnumbered)
      (pools : ∀ engine, shell'.pools.get engine = (shell.pools.get engine).aged (past engine)) :
    Renewed past (core.recast shell before) (core.recast shell' before')

namespace Renewed

theorem pools (renewed : Renewed past first second) (engine : Engine) :
    second.scheduler.pools.get engine =
      (first.scheduler.pools.get engine).aged (past engine) := by
  obtain ⟨core, heard, pools⟩ := renewed
  exact pools engine

theorem tasks (renewed : Renewed past first second) : second.tasks = first.tasks := by
  obtain ⟨core, heard, pools⟩ := renewed
  rfl

theorem agenda (renewed : Renewed past first second) : second.agenda = first.agenda := by
  obtain ⟨core, heard, pools⟩ := renewed
  rfl

theorem heard (renewed : Renewed past first second) :
    second.events.map Event.unnumbered = first.events.map Event.unnumbered := by
  obtain ⟨core, heard, pools⟩ := renewed
  show List.map _ (_ ++ _) = List.map _ (_ ++ _)
  rw [List.map_append, List.map_append, heard]

/-- A run is the same as another one if it is that one with older pools. -/
theorem of_recast (same : second = first.recast second.shell [])
    (aged : ∀ engine, second.scheduler.pools.get engine =
      (first.scheduler.pools.get engine).aged (past engine)) : Renewed past first second := by
  rw [same]
  exact @intro _ _ first first.shell second.shell [] [] rfl aged

/-- What looks at no pool keeps two runs the same. -/
theorem apply (renewed : Renewed past first second) (change : Run σ → Run σ)
    (recast : ∀ run shell before, change (run.recast shell before) =
      (change run).recast shell before) : Renewed past (change first) (change second) := by
  obtain ⟨core, heard, pools⟩ := renewed
  rw [recast, recast]
  exact .intro (change core) heard pools

theorem setPool (renewed : Renewed past first second) (engine : Engine) (pool : Pool Job) :
    Renewed past (first.setPool engine pool) (second.setPool engine (pool.aged (past engine))) := by
  obtain ⟨core, heard, pools⟩ := renewed
  rename_i shell shell' before before'
  have aged : ∀ other, (shell'.pools.set engine (pool.aged (past engine))).get other =
      ((shell.pools.set engine pool).get other).aged (past other) := by
    intro other
    rw [Pools.get_set, Pools.get_set]
    split
    · rename_i same
      rw [same]
    · exact pools other
  exact @intro _ _ core ⟨_, _, _⟩ ⟨_, _, _⟩ _ _ heard aged

theorem tell (renewed : Renewed past first second) {here there : List Notice}
    (same : (there.map Event.notice).map Event.unnumbered =
      (here.map Event.notice).map Event.unnumbered) :
    Renewed past (first.tell here) (second.tell there) := by
  obtain ⟨core, heard, pools⟩ := renewed
  rename_i shell shell' before before'
  have split : ∀ shell before notices, (core.recast shell before).tell notices =
      { core with events := [] }.recast shell
        (before ++ core.events ++ notices.map Event.notice) := by
    intro shell before notices
    simp only [Run.tell, emit, recast, List.append_nil]
  rw [split, split]
  refine .intro _ ?_ pools
  simp only [List.map_append, heard] at same ⊢
  rw [same]

theorem plan (renewed : Renewed past first second) (duties : List Duty) :
    Renewed past (first.plan duties) (second.plan duties) :=
  renewed.apply (fun run => run.plan duties) fun _ _ _ => rfl

/-! ### Moves of both -/

variable (engines : Engines σ)

theorem perform (renewed : Renewed past first second) (duty : Duty) :
    Option.Rel (Renewed past) (first.perform engines duty) (second.perform engines duty) := by
  have aside (submits : ∀ number action, duty ≠ .submit number action)
      (closes : ∀ engine, duty ≠ .close engine) (joins : ∀ engine, duty ≠ .join engine) :
      Option.Rel (Renewed past) (first.perform engines duty) (second.perform engines duty) := by
    obtain ⟨core, heard, pools⟩ := renewed
    rw [perform_recast _ _ _ _ submits closes joins, perform_recast _ _ _ _ submits closes joins]
    cases core.perform engines duty with
    | none => exact .none
    | some next => exact .some (.intro next heard pools)
  cases duty with
  | submit number action =>
    refine .some ?_
    rw [renewed.tasks, renewed.pools]
    cases first.tasks[number]? with
    | none => exact renewed
    | some task =>
      rw [Pool.submit_aged]
      have submitted := renewed.setPool action.engine ((first.scheduler.pools.get
        action.engine).submit action.priority ⟨number, action, .call⟩).pool
      dsimp only
      cases ((first.scheduler.pools.get action.engine).submit action.priority
        ⟨number, action, .call⟩).refusal with
      | none => exact submitted
      | some error => exact (submitted.tell rfl).plan _
  | close engine =>
    refine .some ?_
    rw [renewed.pools, Pool.close_aged]
    exact renewed.setPool engine _
  | join engine =>
    show Option.Rel _ (Option.map _ _)
      (((second.scheduler.pools.get engine).join?).map fun stopped =>
        (second.setPool engine stopped).tell [.poolStopped stopped.name])
    rw [renewed.pools, Pool.join_aged]
    cases (first.scheduler.pools.get engine).join? with
    | none => exact .none
    | some stopped => exact .some ((renewed.setPool engine stopped).tell rfl)
  | _ => exact aside nofun nofun nofun

theorem advance (renewed : Renewed past first second) :
    Option.Rel (Renewed past) (first.advance engines) (second.advance engines) := by
  unfold Run.advance
  rw [renewed.agenda]
  cases first.agenda with
  | nil => exact .none
  | cons duty rest =>
    have taken : Renewed past { first with agenda := rest } { second with agenda := rest } :=
      renewed.apply (fun run => { run with agenda := rest }) fun _ _ _ => rfl
    exact taken.perform engines duty

theorem takeJob (renewed : Renewed past first second) (engine : Engine) :
    Option.Rel (Renewed past) (first.takeJob engine) (second.takeJob engine) := by
  unfold Run.takeJob
  rw [renewed.pools, Pool.take_aged]
  cases (first.scheduler.pools.get engine).take? with
  | none => exact .none
  | some taken => exact .some (renewed.setPool engine taken.2)

theorem work (renewed : Renewed past first second) (engine : Engine) (place : Nat) :
    Option.Rel (Renewed past) (first.work engines engine place)
      (second.work engines engine place) := by
  have goOn : ∀ {here there : Run σ} (job : Job), Renewed past here there →
      Option.Rel (Renewed past)
        (some (here.setPool engine ((here.scheduler.pools.get engine).amend place job)))
        (some (there.setPool engine ((there.scheduler.pools.get engine).amend place job))) := by
    intro here there job renewed
    rw [renewed.pools, Pool.amend_aged]
    exact .some (renewed.setPool engine _)
  unfold Run.work
  have running : (second.scheduler.pools.get engine).running[place]? =
      ((first.scheduler.pools.get engine).running[place]?).map
        (Ticket.aged (past engine).numbers) := by
    rw [renewed.pools]
    exact List.getElem?_map ..
  rw [running, renewed.tasks]
  cases (first.scheduler.pools.get engine).running[place]? with
  | none => exact .none
  | some ticket =>
    obtain ⟨number, priority, taskNumber, action, stage⟩ := ticket
    dsimp only [Option.map_some, Ticket.aged]
    cases first.tasks[taskNumber]? with
    | none => exact .none
    | some task =>
      dsimp only
      cases stage with
      | call =>
        obtain ⟨core, heard, pools⟩ := renewed
        simp only [callEngine_recast]
        exact goOn _ (.intro _ heard pools)
      | keepCounts execution =>
        exact goOn _ (renewed.apply (fun run => run.keepCounts taskNumber action execution)
          fun _ _ _ => keepCounts_recast ..)
      | keepValidation execution =>
        exact goOn _ (renewed.apply (fun run => run.keepValidation taskNumber execution)
          fun _ _ _ => keepValidation_recast ..)
      | report execution =>
        obtain ⟨core, heard, pools⟩ := renewed
        simp only [reportProgress_recast]
        exact goOn _ (.intro _ heard pools)
      | deliver execution changed deliveries =>
        cases deliveries with
        | nil => exact goOn _ renewed
        | cons delivery rest =>
          exact goOn _ (renewed.apply (fun run => run.deliver engines taskNumber delivery)
            fun _ _ _ => deliver_recast ..)
      | announce execution changed =>
        exact goOn _ (renewed.apply (fun run => run.announce taskNumber changed)
          fun _ _ _ => announce_recast ..)
      | countOut execution => exact goOn _ (renewed.apply Run.countOut fun _ _ _ => rfl)
      | leave execution =>
        dsimp only
        rw [renewed.pools, Pool.finish_aged]
        exact .some ((renewed.setPool engine _).tell (Pool.endNotices_aged ..))

/-- A move of the one run is a move of the other. -/
theorem step (renewed : Renewed past first second) (move : Move) :
    Option.Rel (Renewed past) (first.step engines move) (second.step engines move) := by
  cases move with
  | advance => exact renewed.advance engines
  | take engine => exact renewed.takeJob engine
  | work engine place => exact renewed.work engines engine place

/-- **So are some moves, one after the other.** -/
theorem steps (renewed : Renewed past first second) (moves : List Move) :
    Option.Rel (Renewed past) (first.steps engines moves) (second.steps engines moves) := by
  induction moves generalizing first second with
  | nil => exact .some renewed
  | cons move rest hyp =>
    have step := renewed.step engines move
    unfold Run.steps
    generalize first.step engines move = here at step
    generalize second.step engines move = there at step
    cases step with
    | none => exact .none
    | some renewed => exact hyp renewed

end Renewed

end Run

end TableMigration
