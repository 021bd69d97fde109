/-
**What a run writes.**

* `Run.writes` — the writes of a move, with the stores that they go to: what a delivery calls for,
  what the verification finds, and what becomes of a table.
* `Run.step_wrote` — a move shows these writes and no others, and changes the state of the stores and
  engines by them alone, but for calls of the engines (`Engines.Goes`).
-/

import TableMigration.Proofs.Moves

namespace TableMigration

/-! ### Writes that can be seen -/

/-- The write that an event shows. -/
def Event.write? : Event → Option (StoreRef × Write)
  | .wrote store write => some (store, write)
  | _ => none

/-- The writes that some events show. -/
def Event.writes (events : List Event) : List (StoreRef × Write) :=
  events.filterMap write?

namespace Event

theorem writes_append (first second : List Event) :
    writes (first ++ second) = writes first ++ writes second :=
  List.filterMap_append

@[simp] theorem writes_notices (notices : List Notice) : writes (notices.map .notice) = [] := by
  induction notices with
  | nil => rfl
  | cons notice rest hyp => exact hyp

theorem mem_writes {events : List Event} {store : StoreRef} {write : Write} :
    (store, write) ∈ writes events ↔ .wrote store write ∈ events := by
  unfold writes
  rw [List.mem_filterMap]
  constructor
  · rintro ⟨event, member, shown⟩
    cases event with
    | wrote => cases shown; exact member
    | _ => cases shown
  · exact fun member => ⟨_, member, rfl⟩

end Event

/-- How the state of the stores and engines goes on by some writes, and by calls of the engines. -/
inductive Engines.Goes {σ : Type} (engines : Engines σ) (start : σ) :
    List (StoreRef × Write) → σ → Prop
  | refl : Goes engines start [] start
  | write {writes state} (goes : Goes engines start writes state) (store : StoreRef)
    (write : Write) :
    Goes engines start (writes ++ [(store, write)]) (engines.backend.write store write state).2
  | call {writes state} (goes : Goes engines start writes state) (engine : Engine) (number : Nat)
    (task : Task) (action : Action) :
    Goes engines start writes (engines.call engine number task action state).2

theorem Engines.Goes.trans {σ : Type} {engines : Engines σ} {start middle last : σ}
    {first second : List (StoreRef × Write)} (one : engines.Goes start first middle)
    (other : engines.Goes middle second last) : engines.Goes start (first ++ second) last := by
  induction other with
  | refl => rwa [List.append_nil]
  | write _ store write hyp =>
    rw [← List.append_assoc]
    exact hyp.write store write
  | call _ engine number task action hyp => exact hyp.call engine number task action

/-! ### The writes of a move -/

/-- The writes that a delivery of a task calls for. -/
def Task.writesOf (task : Task) : Delivery → List (StoreRef × Write)
  | .signal _ => []
  | .write write => task.store.toList.map fun store => (store, write)

/-- The write by which the verification records what does not agree. -/
def Task.mismatchWrites (task : Task) (store : Option StoreRef) : List (StoreRef × Write) :=
  if !task.table.isPartitioned ∨ task.validatePartitions.failed.isEmpty then []
  else store.toList.map fun store =>
    (store, .status task.table.database task.table.name task.validatePartitions.failed .failed)

namespace Run

variable {σ : Type}

/-- The write by which a table is finished. -/
def lastWrite (run : Run σ) (group : TableGroup) : Write :=
  if run.tableFailed group then .failure group.database group.name
  else .status group.database group.name [] .succeeded

/-- The writes of a duty. -/
def dutyWrites (run : Run σ) : Duty → List (StoreRef × Write)
  | .deliver number delivery =>
    (run.tasks[number]?).toList.flatMap fun task => task.writesOf delivery
  | .judge key =>
    match run.tables.get? key with
    | none => []
    | some group =>
      if group.tasks.all run.isEnded then
        run.scheduler.store.toList.map fun store => (store, run.lastWrite group)
      else []
  | .giveUp key =>
    match run.tables.get? key with
    | none => []
    | some group =>
      if run.tableFailed group then
        run.scheduler.store.toList.map fun store => (store, .failure group.database group.name)
      else []
  | _ => []

/-- The writes of a worker that goes on with a job. -/
def stageWrites (run : Run σ) (task : Task) (action : Action) : Stage → List (StoreRef × Write)
  | .call =>
    if action.engine = .validation ∧ run.scheduler.verifiesItself then
      task.mismatchWrites run.scheduler.store
    else []
  | .deliver _ _ (delivery :: _) => task.writesOf delivery
  | _ => []

/-- The writes of a move. -/
def writes (run : Run σ) : Move → List (StoreRef × Write)
  | .advance => run.agenda.head?.toList.flatMap run.dutyWrites
  | .take _ => []
  | .work engine place =>
    match (run.scheduler.pools.get engine).running[place]? with
    | none => []
    | some ticket =>
      (run.tasks[ticket.job.task]?).toList.flatMap fun task =>
        run.stageWrites task ticket.job.action ticket.job.stage

variable {engines : Engines σ} {run after next last : Run σ}
  {writes first second : List (StoreRef × Write)}

/-- Whether a run goes on by some writes and no others. -/
structure Wrote (engines : Engines σ) (run next : Run σ) (writes : List (StoreRef × Write)) :
    Prop where
  shown : ∃ new, next.events = run.events ++ new ∧ Event.writes new = writes
  made : engines.Goes run.state writes next.state

theorem Wrote.still (events : next.events = run.events) (state : next.state = run.state) :
    Wrote engines run next [] :=
  ⟨⟨[], by rw [events, List.append_nil], rfl⟩, state ▸ .refl⟩

theorem Wrote.trans (one : Wrote engines run after first) (other : Wrote engines after next second) :
    Wrote engines run next (first ++ second) := by
  obtain ⟨new, events, shown⟩ := one.shown
  obtain ⟨new', events', shown'⟩ := other.shown
  refine ⟨⟨new ++ new', ?_, ?_⟩, one.made.trans other.made⟩
  · rw [events', events, List.append_assoc]
  · rw [Event.writes_append, shown, shown']

/-- Events and state are all that matters. -/
theorem Wrote.congr (wrote : Wrote engines run after writes) (events : next.events = after.events)
    (state : next.state = after.state) : Wrote engines run next writes :=
  ⟨by rw [events]; exact wrote.shown, by rw [state]; exact wrote.made⟩

theorem Wrote.of_eq (wrote : Wrote engines after next writes) (events : after.events = run.events)
    (state : after.state = run.state) : Wrote engines run next writes :=
  ⟨by rw [← events]; exact wrote.shown, by rw [← state]; exact wrote.made⟩

theorem Wrote.report (wrote : Wrote engines run after writes) (report : Report) :
    Wrote engines run { after with report := report } writes :=
  wrote.congr rfl rfl

/-- What is no write may be shown besides. -/
theorem Wrote.emit (wrote : Wrote engines run after writes) (events : List Event)
    (silent : Event.writes events = []) : Wrote engines run (after.emit events) writes := by
  have shown : Wrote engines after (after.emit events) [] := ⟨⟨events, rfl, silent⟩, .refl⟩
  have all := wrote.trans shown
  rwa [List.append_nil] at all

theorem Wrote.tell (wrote : Wrote engines run after writes) (notices : List Notice) :
    Wrote engines run (after.tell notices) writes :=
  wrote.emit _ (Event.writes_notices notices)

theorem wrote_tell (run : Run σ) (notices : List Notice) : Wrote engines run (run.tell notices) [] :=
  (Wrote.still rfl rfl).tell notices

/-- One write, with what the store tells about it. -/
theorem wrote_perform (run : Run σ) (store : StoreRef) (write : Write) :
    Wrote engines run ({ run with state := (engines.backend.perform store write run.state).2.2 }.emit
      (engines.backend.perform store write run.state).2.1) [(store, write)] := by
  refine ⟨⟨_, rfl, ?_⟩, (Engines.Goes.refl).write store write⟩
  show (store, write) :: Event.writes (List.map _ _) = _
  rw [Event.writes_notices]

theorem wrote_noteFailure (run : Run σ) (table : Table) :
    Wrote engines run (run.noteFailure table) [] := by
  unfold noteFailure
  split
  · exact .still rfl rfl
  · exact (wrote_tell run _).congr rfl rfl

theorem wrote_deliver {number : Nat} {task : Task} (found : run.tasks[number]? = some task)
    (delivery : Delivery) :
    Wrote engines run (run.deliver engines number delivery) (task.writesOf delivery) := by
  unfold deliver
  simp only [found]
  cases delivery with
  | signal listener =>
    cases listener with
    | observer =>
      rw [if_neg (by simp)]
      exact ⟨⟨_, rfl, rfl⟩, .refl⟩
    | scheduler =>
      rw [if_pos rfl]
      have delivered : Wrote engines run ({ run with
          state := (task.deliver engines.backend (.signal .scheduler) run.state).2 }.emit
          (task.deliver engines.backend (.signal .scheduler) run.state).1) [] :=
        .still (List.append_nil _) rfl
      exact delivered.trans (wrote_noteFailure _ task.table)
  | write write =>
    rw [if_neg (by simp)]
    unfold Task.deliver Task.writesOf
    cases task.store with
    | none => exact .still (List.append_nil _) rfl
    | some store =>
      have told : Wrote engines run _ [(store, write)] := (wrote_perform run store write).tell
        (task.writeNotices write (engines.backend.perform store write run.state).1)
      exact told.congr (List.append_assoc ..).symm rfl

theorem wrote_announce (run : Run σ) (number : Nat) (changed : Option Progress) :
    Wrote engines run (run.announce number changed) [] := by
  unfold announce
  split
  · split
    · exact wrote_tell run _
    · exact .still rfl rfl
  · exact .still rfl rfl

/-- A write on the store of the scheduler. -/
theorem wrote_write (run : Run σ) (write : Write) (refused : String → Notice) :
    Wrote engines run (run.write engines write refused)
      (run.scheduler.store.toList.map fun store => (store, write)) := by
  unfold Run.write
  split
  · rename_i storeless
    rw [storeless]
    exact .still rfl rfl
  · rename_i store known
    rw [known]
    dsimp only
    split
    · exact wrote_perform run store write
    · exact (wrote_perform run store write).tell _

theorem wrote_recordFailure (run : Run σ) (group : TableGroup) :
    Wrote engines run (run.recordFailure engines group) (run.scheduler.store.toList.map fun store =>
      (store, .failure group.database group.name)) :=
  wrote_write run _ _

/-- A table is finished with one write. -/
theorem wrote_finishTable (run : Run σ) (key : String) (group : TableGroup) :
    Wrote engines run (run.finishTable engines key group)
      (run.scheduler.store.toList.map fun store => (store, run.lastWrite group)) := by
  unfold finishTable lastWrite
  dsimp only
  by_cases failed : run.tableFailed group = true
  · rw [if_pos (by exact failed), if_pos failed]
    refine Wrote.report ?_ _
    have told : ∀ (tables : Grouping) (report : Report), Wrote engines run
        (Run.tell { run with tables := tables, report := report } [.tableFailed group.fullName])
        [] :=
      fun _ _ => (wrote_tell _ _).of_eq rfl rfl
    exact (told _ _).trans (wrote_recordFailure _ group)
  · rw [if_neg (by exact failed), if_neg failed]
    refine Wrote.report (Wrote.tell ?_ _) _
    exact (wrote_write _ _ _).of_eq rfl rfl

theorem wrote_giveUp (run : Run σ) (key : String) (group : TableGroup) :
    Wrote engines run (run.giveUp engines key group)
      (if run.tableFailed group then
        run.scheduler.store.toList.map fun store => (store, .failure group.database group.name)
      else []) := by
  unfold giveUp
  dsimp only
  by_cases failed : run.tableFailed group = true
  · rw [if_pos (by exact failed), if_pos failed]
    have told : ∀ report : Report,
        Wrote engines run { run.tell [.tableStuck key] with report := report } [] :=
      (wrote_tell run _).report
    exact (told _).trans (wrote_recordFailure _ group)
  · rw [if_neg (by exact failed), if_neg failed]
    exact (wrote_tell run _).report _

theorem wrote_reportProgress (run : Run σ) (number : Nat) (action : Action) (progress : Progress) :
    Wrote engines run (run.reportProgress number action progress).1 [] := by
  unfold reportProgress
  split
  · exact .still rfl rfl
  · exact (wrote_tell run _).congr rfl rfl

theorem wrote_recordMismatch (run : Run σ) (store : Option StoreRef) (task : Task)
    (partitions : List Partition) :
    Wrote engines run ({ run with
      state := (task.recordMismatch engines.backend store partitions run.state).2 }.emit
        (task.recordMismatch engines.backend store partitions run.state).1)
      (if partitions.isEmpty then []
      else store.toList.map fun store =>
        (store, .status task.table.database task.table.name partitions .failed)) := by
  unfold Task.recordMismatch
  cases store with
  | none =>
    rw [Option.toList_none, List.map_nil, ite_self]
    exact .still (List.append_nil _) rfl
  | some store =>
    dsimp only
    by_cases empty : partitions.isEmpty = true
    · simp only [empty, if_true]
      exact .still (List.append_nil _) rfl
    · simp only [empty, Bool.false_eq_true, if_false]
      have wrote : Wrote engines run _ [(store, _)] := wrote_perform run store
        (.status task.table.database task.table.name partitions .failed)
      split
      · exact wrote
      · rename_i reason _
        have told := wrote.tell [.mismatchUnrecorded task.name reason]
        exact told.congr (List.append_assoc ..).symm rfl

/-- The built-in verification makes one write at most. -/
theorem wrote_verify (run : Run σ) (number : Nat) (task : Task) (store : Option StoreRef) :
    Wrote engines run ({ run with
      state := (task.verify engines.backend store .finalVerification run.state).2.2 }.emit
        ((task.verify engines.backend store .finalVerification run.state).2.1 ++
          [Event.verified number
            (task.verify engines.backend store .finalVerification run.state).1]))
      (task.mismatchWrites store) := by
  unfold Task.verify
  rw [if_neg (not_not.mpr rfl)]
  by_cases flat : (!task.table.isPartitioned) = true
  · have agreeing : task.mismatchWrites store = [] := if_pos (Or.inl flat)
    rw [if_pos flat, agreeing]
    split <;> exact ⟨⟨_, rfl, rfl⟩, .refl⟩
  rw [if_neg flat]
  have told : Wrote engines run (run.tell task.mismatchNotices) [] := wrote_tell run _
  have recorded := told.trans (wrote_recordMismatch (run.tell task.mismatchNotices) store task
    task.validatePartitions.failed)
  have shown := recorded.emit [.verified number (Task.verdict task.validatePartitions)] rfl
  have same : task.mismatchWrites store = if task.validatePartitions.failed.isEmpty then []
      else store.toList.map fun store => (store, .status task.table.database task.table.name
        task.validatePartitions.failed .failed) := by
    unfold Task.mismatchWrites
    simp only [flat, Bool.false_eq_true, false_or]
  rw [same]
  refine shown.congr ?_ rfl
  show run.events ++ (_ ++ _ ++ _) = run.events ++ _ ++ _ ++ _
  simp only [List.append_assoc]
  rfl

theorem wrote_callEngine (run : Run σ) (number : Nat) (task : Task) (action : Action) :
    Wrote engines run (run.callEngine engines number task action).2
      (if action.engine = .validation ∧ run.scheduler.verifiesItself then
        task.mismatchWrites run.scheduler.store
      else []) := by
  unfold callEngine
  by_cases itself : action.engine = .validation ∧ run.scheduler.verifiesItself = true
  · rw [if_pos itself, if_pos itself, Action.engine_eq_validation itself.1]
    exact wrote_verify run number task run.scheduler.store
  · rw [if_neg itself, if_neg itself]
    exact ⟨⟨_, rfl, rfl⟩, (Engines.Goes.refl).call action.engine number task action⟩

/-! ### Moves -/

/-- A duty makes its writes and no others. -/
theorem wrote_perform_duty {duty : Duty} (performed : run.perform engines duty = some next) :
    Wrote engines run next (run.dutyWrites duty) := by
  cases duty with
  | beginPass | countIn | countOut | wait | unlisten | close =>
    cases performed
    exact .still rfl rfl
  | look number | collect number =>
    cases performed
    split <;> exact .still rfl rfl
  | dispatch number action =>
    cases performed
    split
    · exact .still rfl rfl
    · rename_i task _
      have told : Wrote engines run (run.tell [.dispatched task.name action]) [] :=
        wrote_tell run _
      have reported := told.trans (wrote_reportProgress (run.tell [.dispatched task.name action])
        number action .running)
      exact reported.congr rfl rfl
  | submit number action =>
    cases performed
    dsimp only
    split
    · exact .still rfl rfl
    · split
      · exact .still rfl rfl
      · exact (wrote_tell run _).congr rfl rfl
  | refuse number action =>
    cases performed
    exact (wrote_reportProgress run number action .failed).congr rfl rfl
  | deliver number delivery =>
    cases performed
    show Wrote engines run _ ((run.tasks[number]?).toList.flatMap fun task =>
      task.writesOf delivery)
    cases found : run.tasks[number]? with
    | none =>
      have same : run.deliver engines number delivery = run := by
        unfold deliver
        rw [found]
      rw [same]
      exact .still rfl rfl
    | some task =>
      rw [Option.toList_some, List.flatMap_singleton]
      exact wrote_deliver found delivery
  | announce number progress =>
    cases performed
    exact wrote_announce run number (some progress)
  | judge key =>
    cases performed
    cases found : run.tables.get? key with
    | none =>
      simp only [dutyWrites, found]
      exact .still rfl rfl
    | some group =>
      simp only [dutyWrites, found]
      by_cases ended : group.tasks.all run.isEnded = true
      · rw [if_pos ended, if_pos ended]
        exact wrote_finishTable run key group
      · rw [if_neg ended, if_neg ended]
        exact .still rfl rfl
  | test =>
    cases performed
    split
    · exact .still rfl rfl
    · split <;> exact .still rfl rfl
  | giveUp key =>
    cases performed
    cases found : run.tables.get? key with
    | none =>
      simp only [dutyWrites, found]
      exact .still rfl rfl
    | some group =>
      simp only [dutyWrites, found]
      exact wrote_giveUp run key group
  | join engine =>
    simp only [perform, Option.map_eq_some_iff] at performed
    obtain ⟨stopped, joined, rfl⟩ := performed
    exact (wrote_tell run _).congr rfl rfl
  | conclude =>
    cases performed
    exact wrote_tell run _

theorem Does.wrote {number : Nat} {task : Task} {action : Action} {stage later : Stage}
    (does : Does engines run number task action stage after later)
    (found : run.tasks[number]? = some task) :
    Wrote engines run after (run.stageWrites task action stage) := by
  cases does with
  | call => exact wrote_callEngine run number task action
  | deliver execution changed delivery rest => exact wrote_deliver found delivery
  | announce execution changed => exact wrote_announce run number changed
  | report execution => exact (wrote_tell run _).congr rfl rfl
  | _ => exact .still rfl rfl

/-- **A move makes its writes and no others.** -/
theorem step_wrote {move : Move} (moved : run.step engines move = some next) :
    Wrote engines run next (run.writes move) := by
  cases move with
  | advance =>
    obtain ⟨duty, rest, agenda, performed⟩ := exists_of_advance moved
    have wrote := wrote_perform_duty performed
    have same : run.writes .advance = { run with agenda := rest }.dutyWrites duty := by
      unfold writes
      rw [agenda]
      exact List.append_nil _
    rw [same]
    exact wrote.of_eq rfl rfl
  | take engine =>
    simp only [step, takeJob, Option.map_eq_some_iff] at moved
    obtain ⟨_, _, rfl⟩ := moved
    exact .still rfl rfl
  | work engine place =>
    obtain ⟨ticket, task, job, found, goes⟩ := work_cases moved
    have same : run.writes (.work engine place) =
        run.stageWrites task ticket.job.action ticket.job.stage := by
      simp only [writes, job, found, Option.toList_some, List.flatMap_singleton]
    rw [same]
    rcases goes with ⟨after, later, does, rfl⟩ | ⟨execution, ending, notices, leaves, rfl⟩
    · exact (does.wrote found).congr rfl rfl
    · rw [leaves]
      exact (wrote_tell run notices).congr rfl rfl

/-- The writes of some moves, one after the other. -/
def allWrites (engines : Engines σ) (run : Run σ) : List Move → List (StoreRef × Write)
  | [] => []
  | move :: rest =>
    match run.step engines move with
    | none => []
    | some next => run.writes move ++ next.allWrites engines rest

/-- **So do some moves.** -/
theorem steps_wrote {moves : List Move} (moved : run.steps engines moves = some last) :
    Wrote engines run last (run.allWrites engines moves) := by
  induction moves generalizing run with
  | nil =>
    cases moved
    exact .still rfl rfl
  | cons move rest hyp =>
    unfold steps at moved
    obtain ⟨next, first, later⟩ := Option.bind_eq_some_iff.mp moved
    have all : run.allWrites engines (move :: rest) =
        run.writes move ++ next.allWrites engines rest := by
      rw [allWrites, first]
    rw [all]
    exact (step_wrote first).trans (hyp later)

/-- What every move keeps of a run, with its acts and writes so far, some moves keep one after the
other. -/
theorem steps_hold {holds : List Act → List (StoreRef × Write) → Run σ → Prop}
    (keeps : ∀ acts written run move next, holds acts written run →
      run.step engines move = some next →
      holds (acts ++ run.acts engines move) (written ++ run.writes move) next)
    {acts : List Act} {written : List (StoreRef × Write)} {moves : List Move}
    (now : holds acts written run) (moved : run.steps engines moves = some last) :
    holds (acts ++ run.trace engines moves) (written ++ run.allWrites engines moves) last := by
  induction moves generalizing run acts written with
  | nil =>
    cases moved
    rw [trace, allWrites, List.append_nil, List.append_nil]
    exact now
  | cons move rest hyp =>
    unfold steps at moved
    obtain ⟨next, first, later⟩ := Option.bind_eq_some_iff.mp moved
    have goes := hyp (keeps acts written run move next now first) later
    rw [List.append_assoc, List.append_assoc] at goes
    rw [trace, allWrites, first]
    exact goes

end Run

end TableMigration
