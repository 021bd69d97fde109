/-
**Stores make no difference to a run.**

* `Executor.engines` — engines that know nothing of the stores, and verifications that make their
  writes on a store of their own. How the stores answer is left open.
* `Run.Alike` — two runs that are the same but for the stores of scheduler, tasks and verifications,
  and for what these stores do. A move of the one is a move of the other, and keeps them alike
  (`Run.Alike.step`).
* `Scheduler.stores_make_no_difference` — so whatever stores are exchanged for others or taken away,
  the same moves make the same calls and leave the same tasks and the same report.
-/

import TableMigration.Scheduler.Run

namespace TableMigration

/-! ### Engines beside stores -/

/-- What runs the actions of an engine. -/
inductive Executor (ε : Type) where
  /-- Something that knows nothing of the stores, not even which one a task has. -/
  | plain (call : (number : Nat) → Task → Action → ε → EngineReply × ε)
  /-- The verification, with a store or without. -/
  | verification

namespace Task

/-- Exchange the store of a task. -/
def withStore (task : Task) (store : Option StoreRef) : Task :=
  { task with store := store }

/-- Exchange the stores of some tasks. -/
def withStores (stores : Nat → Option StoreRef) (tasks : List Task) : List Task :=
  tasks.mapIdx fun number task => task.withStore (stores number)

end Task

namespace Executor

variable {ε τ : Type}

/-- Let an executor run an action, with a store for it if it is a verification. -/
def call (backend : Backend τ) (store : Option StoreRef) (number : Nat) (task : Task)
    (action : Action) (state : ε × τ) : Executor ε → EngineReply × ε × τ
  | .plain call =>
    let (reply, own) := call number (task.withStore none) action state.1
    (reply, own, state.2)
  | .verification =>
    let (execution, _, world) := task.verify backend store action state.2
    (.returned execution, state.1, world)

/-- Some executors, each with a store in case it is a verification, and some stores beside them. -/
def engines (executors : Engine → Executor ε) (stores : Engine → Option StoreRef)
    (backend : Backend τ) : Engines (ε × τ) where
  backend :=
    { config := fun store database table state =>
        ((backend.config store database table state.2).1, state.1,
          (backend.config store database table state.2).2)
      write := fun store write state =>
        ((backend.write store write state.2).1, state.1, (backend.write store write state.2).2) }
  call engine number task action state :=
    (executors engine).call backend (stores engine) number task action state

end Executor

/-! ### Tasks whose stores are exchanged -/

namespace Task

variable {σ τ : Type} (task : Task) (store : Option StoreRef)

theorem withStore_withStore (other : Option StoreRef) :
    (task.withStore store).withStore other = task.withStore other := rfl

theorem records_withStore : (task.withStore store).records = task.records := rfl

/-- A change that has nothing to do with stores may be made to some tasks before their stores are
exchanged, or after. -/
theorem foldl_modify_withStores {change : Task → Task}
    (apart : ∀ task store, (change task).withStore store = change (task.withStore store))
    (stores : Nat → Option StoreRef) (listed : List Nat) (tasks : List Task) :
    listed.foldl (fun tasks number => tasks.modify number change) (withStores stores tasks) =
      withStores stores (listed.foldl (fun tasks number => tasks.modify number change) tasks) := by
  induction listed generalizing tasks with
  | nil => rfl
  | cons number rest hyp =>
    have one : (withStores stores tasks).modify number change =
        withStores stores (tasks.modify number change) := by
      refine List.ext_getElem? fun other => ?_
      unfold withStores
      rw [List.getElem?_modify, List.getElem?_mapIdx, List.getElem?_mapIdx, List.getElem?_modify]
      cases tasks[other]? with
      | none => rfl
      | some task =>
        refine congrArg some ?_
        show (if number = other then change (task.withStore (stores other)) else task.withStore _) =
          (if number = other then change task else task).withStore _
        split
        · exact (apart task _).symm
        · rfl
    rw [List.foldl_cons, List.foldl_cons, one, hyp]

theorem keepCounts_withStore (action : Action) (table : String) (counts : RowCounts) :
    (task.withStore store).keepCounts action table counts =
      (task.keepCounts action table counts).map fun kept => kept.withStore store := by
  unfold keepCounts
  rw [records_withStore]
  cases task.records action with
  | none => rfl
  | some record =>
    obtain ⟨progress, findings⟩ := record
    cases findings <;> rfl

theorem keepValidation_withStore (validation : Validation) :
    (task.withStore store).keepValidation validation =
      (task.keepValidation validation).map fun kept => kept.withStore store := by
  unfold keepValidation
  rw [records_withStore]
  cases task.records .finalVerification with
  | none => rfl
  | some record =>
    obtain ⟨progress, findings⟩ := record
    cases findings <;> rfl

/-- The report of an action means the same for a task with another store. -/
theorem update_withStore (action : Action) (reported : Progress) :
    (task.withStore store).update action reported =
      { task.update action reported with
        task := (task.update action reported).task.withStore store } := by
  unfold update
  rw [records_withStore]
  cases task.records action with
  | none => rfl
  | some record =>
    dsimp only
    by_cases ignored : record.progress = reported ∨ record.progress.isTerminal
    · rw [if_pos ignored, if_pos ignored]
      rfl
    · rw [if_neg ignored, if_neg ignored]
      by_cases same : ((task.setRecord action { record with progress := reported }).progressAfter
          reported) = task.progress
      · rw [if_pos same]
        exact if_pos same
      · rw [if_neg same]
        exact if_neg same

/-- A verification finds out the same with every store. -/
theorem verify_withStore (first : Backend σ) (second : Backend τ) (here there : Option StoreRef)
    (action : Action) (state : σ) (world : τ) :
    ((task.withStore store).verify second there action world).1 =
      (task.verify first here action state).1 := by
  unfold verify
  show (if action ≠ .finalVerification then _ else if !task.table.isPartitioned then
    if task.validateTable then _ else _ else _ : Execution × List Event × τ).1 = _
  split
  · rfl
  · split
    · split <;> rfl
    · rfl

end Task

/-! ### Runs that are alike -/

/-- Whether an event is a call of an engine, a comparison of counts, or a signal to an observer. -/
def Event.isCall : Event → Bool
  | .called .. | .verified .. | .signalled .. => true
  | .notice _ | .configRead .. | .wrote .. => false

/-- What is told to the operators is no call. -/
theorem Event.filter_notices (notices : List Notice) :
    (notices.map Event.notice).filter Event.isCall = [] := by
  refine List.filter_eq_nil_iff.mpr fun event member => ?_
  obtain ⟨_, _, rfl⟩ := List.mem_map.mp member
  exact Bool.false_ne_true

/-! ### What stores do -/

namespace Executor

variable {ε τ : Type} (executors : Engine → Executor ε) (checks : Engine → Option StoreRef)
  (backend : Backend τ)

/-- A write is no call, and changes nothing but the stores. -/
theorem perform_aside (store : StoreRef) (write : Write) (state : ε × τ) :
    ((engines executors checks backend).backend.perform store write state).2.1.filter Event.isCall =
        [] ∧
      ((engines executors checks backend).backend.perform store write state).2.2.1 = state.1 :=
  ⟨Event.filter_notices _, rfl⟩

/-- Only a signal to an observer can be heard by others than the stores. -/
theorem deliver_aside (task : Task) (delivery : Delivery) (state : ε × τ) :
    (task.deliver (engines executors checks backend).backend delivery state).1.filter Event.isCall =
        (if delivery = .signal .observer then [.signalled task.table.database task.table.name]
          else []) ∧
      (task.deliver (engines executors checks backend).backend delivery state).2.1 = state.1 := by
  cases delivery with
  | signal listener => cases listener <;> exact ⟨rfl, rfl⟩
  | write write =>
    unfold Task.deliver
    rw [if_neg nofun]
    cases task.store with
    | none => exact ⟨rfl, rfl⟩
    | some store =>
      obtain ⟨events, kept⟩ := perform_aside executors checks backend store write state
      refine ⟨?_, kept⟩
      show (_ ++ List.map Event.notice _).filter Event.isCall = []
      rw [List.filter_append, events, Event.filter_notices]
      rfl

/-- A verification is heard by nobody, and changes nothing but the stores. -/
theorem verify_aside (store : Option StoreRef) (task : Task) (action : Action) (state : ε × τ) :
    (task.verify (engines executors checks backend).backend store action state).2.1.filter
        Event.isCall = [] ∧
      (task.verify (engines executors checks backend).backend store action state).2.2.1 =
        state.1 := by
  have records : ∀ partitions,
      (task.recordMismatch (engines executors checks backend).backend store partitions
        state).1.filter Event.isCall = [] ∧
      (task.recordMismatch (engines executors checks backend).backend store partitions state).2.1 =
        state.1 := by
    intro partitions
    unfold Task.recordMismatch
    split
    · exact ⟨rfl, rfl⟩
    · rename_i store
      split
      · exact ⟨rfl, rfl⟩
      · obtain ⟨events, kept⟩ := perform_aside executors checks backend store
          (.status task.table.database task.table.name partitions .failed) state
        dsimp only
        split
        · exact ⟨events, kept⟩
        · exact ⟨by rw [List.filter_append, events]; rfl, kept⟩
  unfold Task.verify
  split
  · exact ⟨rfl, rfl⟩
  · split
    · split <;> exact ⟨rfl, rfl⟩
    · obtain ⟨events, kept⟩ := records task.validatePartitions.failed
      refine ⟨?_, kept⟩
      show (List.map Event.notice _ ++ _).filter Event.isCall = []
      rw [List.filter_append, Event.filter_notices, events]
      rfl

end Executor

namespace Run

variable {ε τ υ : Type}

/-- The calls that a run has made so far, with their results. -/
def calls {σ : Type} (run : Run σ) : List Event :=
  run.events.filter Event.isCall

/-- A write of the scheduler is heard by nobody, and changes nothing but the stores. -/
theorem write_aside (executors : Engine → Executor ε) (checks : Engine → Option StoreRef)
    (backend : Backend τ) (run : Run (ε × τ)) (write : Write) (refused : String → Notice) :
    ∃ state heard, run.write (Executor.engines executors checks backend) write refused =
        { run with state := state }.emit heard ∧
      state.1 = run.state.1 ∧ heard.filter Event.isCall = [] := by
  unfold Run.write
  cases run.scheduler.store with
  | none => exact ⟨run.state, [], by simp [emit], rfl, rfl⟩
  | some store =>
    obtain ⟨events, kept⟩ :=
      Executor.perform_aside executors checks backend store write run.state
    dsimp only
    split
    · exact ⟨_, _, rfl, kept, events⟩
    · rename_i reason _
      refine ⟨_, ((Executor.engines executors checks backend).backend.perform store write
        run.state).2.1 ++ [.notice (refused reason)], ?_, kept, ?_⟩
      · simp only [tell, emit, List.map_cons, List.map_nil, List.append_assoc]
      · rw [List.filter_append, events]
        rfl

/-- Whether a run is like another in all but the stores: the second run has its own store for the
scheduler and for each task, and the stores do what they like. -/
structure Alike (store : Option StoreRef) (stores : Nat → Option StoreRef) (first : Run (ε × τ))
    (second : Run (ε × υ)) : Prop where
  scheduler : second.scheduler = { first.scheduler with store := store }
  tasks : second.tasks = Task.withStores stores first.tasks
  listed : second.listed = first.listed
  tables : second.tables = first.tables
  report : second.report = first.report
  seen : second.seen = first.seen
  dispatched : second.dispatched = first.dispatched
  agenda : second.agenda = first.agenda
  calls : second.calls = first.calls
  executors : second.state.1 = first.state.1

variable {store : Option StoreRef} {stores : Nat → Option StoreRef} {first : Run (ε × τ)}
  {second : Run (ε × υ)}

namespace Alike

theorem task (alike : Alike store stores first second) (number : Nat) : second.tasks[number]? =
    (first.tasks[number]?).map fun task => task.withStore (stores number) := by
  rw [alike.tasks]
  exact List.getElem?_mapIdx

/-- A task is there in both runs, or in none. -/
theorem found (alike : Alike store stores first second) (number : Nat) :
    (first.tasks[number]? = none ∧ second.tasks[number]? = none) ∨
      ∃ task, first.tasks[number]? = some task ∧
        second.tasks[number]? = some (task.withStore (stores number)) := by
  rw [alike.task]
  cases first.tasks[number]? with
  | none => exact .inl ⟨rfl, rfl⟩
  | some task => exact .inr ⟨task, rfl, rfl⟩

theorem pools (alike : Alike store stores first second) :
    second.scheduler.pools = first.scheduler.pools := by
  rw [alike.scheduler]

theorem isEnded (alike : Alike store stores first second) (number : Nat) :
    second.isEnded number = first.isEnded number := by
  unfold Run.isEnded
  rw [alike.task]
  cases first.tasks[number]? <;> rfl

theorem hasFailed (alike : Alike store stores first second) (number : Nat) :
    second.hasFailed number = first.hasFailed number := by
  unfold Run.hasFailed
  rw [alike.task]
  cases first.tasks[number]? <;> rfl

theorem tableFailed (alike : Alike store stores first second) (group : TableGroup) :
    second.tableFailed group = first.tableFailed group := by
  have failed : second.hasFailed = first.hasFailed := funext alike.hasFailed
  unfold Run.tableFailed
  rw [failed, alike.scheduler]

/-! ### What keeps runs alike -/

theorem emit (alike : Alike store stores first second) {here there : List Event}
    (same : there.filter Event.isCall = here.filter Event.isCall) :
    Alike store stores (first.emit here) (second.emit there) :=
  { alike with
    calls := by
      show (second.events ++ there).filter _ = (first.events ++ here).filter _
      rw [List.filter_append, List.filter_append, same]
      exact congrArg (· ++ here.filter Event.isCall) alike.calls }

theorem tell (alike : Alike store stores first second) (here there : List Notice) :
    Alike store stores (first.tell here) (second.tell there) :=
  alike.emit ((Event.filter_notices there).trans (Event.filter_notices here).symm)

theorem plan (alike : Alike store stores first second) (duties : List Duty) :
    Alike store stores (first.plan duties) (second.plan duties) :=
  { alike with agenda := congrArg (duties ++ ·) alike.agenda }

theorem setTask (alike : Alike store stores first second) (number : Nat) (task : Task) :
    Alike store stores (first.setTask number task)
      (second.setTask number (task.withStore (stores number))) :=
  { alike with
    tasks := by
      show second.tasks.set number _ = Task.withStores stores (first.tasks.set number task)
      rw [alike.tasks]
      exact List.mapIdx_set.symm }

theorem setPool (alike : Alike store stores first second) (engine : Engine) (pool : Pool Job) :
    Alike store stores (first.setPool engine pool) (second.setPool engine pool) :=
  { alike with
    scheduler := by
      show second.scheduler.setPool engine pool = _
      rw [alike.scheduler]
      rfl }

/-- The report of an action leads to the same in both runs. -/
theorem reportProgress (alike : Alike store stores first second) (number : Nat) (action : Action)
    (progress : Progress) : ∃ here there follows,
      first.reportProgress number action progress = (here, follows) ∧
      second.reportProgress number action progress = (there, follows) ∧
      Alike store stores here there := by
  unfold Run.reportProgress
  obtain ⟨absent, absent'⟩ | ⟨task, found, found'⟩ := alike.found number
  · simp only [absent, absent']
    exact ⟨first, second, (none, []), rfl, rfl, alike⟩
  · simp only [found, found', Task.update_withStore]
    exact ⟨_, _, (_, _), rfl, rfl, (alike.setTask number _).tell _ _⟩

theorem countOut (alike : Alike store stores first second) :
    Alike store stores first.countOut second.countOut :=
  { alike with
    scheduler := by
      show ({ second.scheduler with inFlight := _, completions := _ } : Scheduler) = _
      rw [alike.scheduler]
      rfl }

/-- Runs stay alike when the executors get the same state, whatever that of the stores is, and the
same calls are made. -/
theorem move (alike : Alike store stores first second) {here : ε × τ} {there : ε × υ}
    {heard heard' : List Event} (own : there.1 = here.1)
    (same : heard'.filter Event.isCall = heard.filter Event.isCall) :
    Alike store stores ({ first with state := here }.emit heard)
      ({ second with state := there }.emit heard') := by
  have moved : Alike store stores { first with state := here } { second with state := there } :=
    { alike with executors := own }
  exact moved.emit same

/-- What the stores do in the meantime, and what is told about it, keeps runs alike. -/
theorem aside (alike : Alike store stores first second) {here : ε × τ} {there : ε × υ}
    {heard heard' : List Event} (kept : here.1 = first.state.1) (kept' : there.1 = second.state.1)
    (same : heard'.filter Event.isCall = heard.filter Event.isCall) :
    Alike store stores ({ first with state := here }.emit heard)
      ({ second with state := there }.emit heard') :=
  alike.move (kept'.trans (alike.executors.trans kept.symm)) same

theorem noteFailure (alike : Alike store stores first second) (table : Table) :
    Alike store stores (first.noteFailure table) (second.noteFailure table) := by
  have same : second.scheduler.failedTables = first.scheduler.failedTables := by
    rw [alike.scheduler]
  unfold Run.noteFailure
  rw [same]
  split
  · exact alike
  · refine Alike.tell ?_ _ _
    exact { alike with
      scheduler := by
        show ({ second.scheduler with failedTables := _ } : Scheduler) = _
        rw [alike.scheduler] }

/-- Both runs report the same in addition. -/
theorem mapReport (alike : Alike store stores first second) (change : Report → Report) :
    Alike store stores { first with report := change first.report }
      { second with report := change second.report } :=
  { alike with report := congrArg change alike.report }

section Engines

variable (executors : Engine → Executor ε) (checks checks' : Engine → Option StoreRef)
  (backend : Backend τ) (backend' : Backend υ)

theorem deliver (alike : Alike store stores first second) (number : Nat) (delivery : Delivery) :
    Alike store stores (first.deliver (Executor.engines executors checks backend) number delivery)
      (second.deliver (Executor.engines executors checks' backend') number delivery) := by
  unfold Run.deliver
  obtain ⟨absent, absent'⟩ | ⟨task, found, found'⟩ := alike.found number
  · simp only [absent, absent']
    exact alike
  · simp only [found, found']
    obtain ⟨heard, kept⟩ :=
      Executor.deliver_aside executors checks backend task delivery first.state
    obtain ⟨heard', kept'⟩ := Executor.deliver_aside executors checks' backend'
      (task.withStore (stores number)) delivery second.state
    have delivered := alike.aside kept kept' (heard'.trans heard.symm)
    split
    · exact delivered.noteFailure task.table
    · exact delivered

theorem write (alike : Alike store stores first second) (write write' : Write)
    (refused refused' : String → Notice) :
    Alike store stores
      (first.write (Executor.engines executors checks backend) write refused)
      (second.write (Executor.engines executors checks' backend') write' refused') := by
  obtain ⟨here, heard, wrote, kept, silent⟩ :=
    write_aside executors checks backend first write refused
  obtain ⟨there, heard', wrote', kept', silent'⟩ :=
    write_aside executors checks' backend' second write' refused'
  rw [wrote, wrote']
  exact alike.aside kept kept' (silent'.trans silent.symm)

theorem finishTable (alike : Alike store stores first second) (key : String) (group : TableGroup) :
    Alike store stores
      (first.finishTable (Executor.engines executors checks backend) key group)
      (second.finishTable (Executor.engines executors checks' backend') key group) := by
  have failed : second.hasFailed = first.hasFailed := funext alike.hasFailed
  -- the table is finished and its tasks are counted before anything is written
  have counted : ∀ report : Report, Alike store stores
      { first with
        tables := first.tables.put key { group with finished := true }, report := report }
      { second with
        tables := second.tables.put key { group with finished := true }, report := report } :=
    fun report => { alike with tables := by rw [alike.tables], report := rfl }
  have judged := fun report => (counted report).tableFailed group
  unfold Run.finishTable
  rw [alike.report, failed]
  dsimp only
  rw [judged]
  split
  · exact (((counted _).tell _ _).write executors checks checks' backend backend' _ _ _ _).mapReport
      fun report => { report with failed := report.failed ++ [group.fullName] }
  · exact (((counted _).write executors checks checks' backend backend' _ _ _ _).tell _ _).mapReport
      fun report => { report with succeeded := report.succeeded ++ [group.fullName] }

theorem giveUp (alike : Alike store stores first second) (key : String) (group : TableGroup) :
    Alike store stores
      (first.giveUp (Executor.engines executors checks backend) key group)
      (second.giveUp (Executor.engines executors checks' backend') key group) := by
  have reported := (alike.tell [.tableStuck key] [.tableStuck key]).mapReport
    fun report => { report with unfinished := report.unfinished ++ [key] }
  have judged := reported.tableFailed group
  unfold Run.giveUp
  dsimp only
  split
  · rename_i fails
    rw [if_pos (judged.trans fails)]
    exact reported.write executors checks checks' backend backend' _ _ _ _
  · rename_i holds
    rw [if_neg (judged ▸ holds)]
    exact reported

/-- **An engine finds out the same, whatever the stores do.** -/
theorem callEngine (alike : Alike store stores first second) (number : Nat) (task : Task)
    (action : Action) :
    (second.callEngine (Executor.engines executors checks' backend') number
        (task.withStore (stores number)) action).1 =
      (first.callEngine (Executor.engines executors checks backend) number task action).1 ∧
    Alike store stores
      (first.callEngine (Executor.engines executors checks backend) number task action).2
      (second.callEngine (Executor.engines executors checks' backend') number
        (task.withStore (stores number)) action).2 := by
  have itself : second.scheduler.verifiesItself = first.scheduler.verifiesItself := by
    rw [alike.scheduler]
  unfold Run.callEngine
  rw [itself]
  split
  · obtain ⟨heard, kept⟩ := Executor.verify_aside executors checks backend first.scheduler.store
      task action first.state
    obtain ⟨heard', kept'⟩ := Executor.verify_aside executors checks' backend'
      second.scheduler.store (task.withStore (stores number)) action second.state
    have found := task.verify_withStore (stores number)
      (Executor.engines executors checks backend).backend
      (Executor.engines executors checks' backend').backend first.scheduler.store
      second.scheduler.store action first.state second.state
    refine ⟨found, alike.aside kept kept' ?_⟩
    rw [List.filter_append, List.filter_append, heard, heard', found]
  · have own := alike.executors
    show _ ∧ _
    dsimp only [Executor.engines]
    cases executors action.engine with
    | plain call =>
      simp only [Executor.call, Task.withStore_withStore, own]
      exact ⟨trivial, alike.move rfl rfl⟩
    | verification =>
      have found := task.verify_withStore (stores number) backend backend' (checks action.engine)
        (checks' action.engine) action first.state.2 second.state.2
      simp only [Executor.call, found]
      exact ⟨trivial, alike.aside rfl rfl rfl⟩

end Engines

theorem keepCounts (alike : Alike store stores first second) (number : Nat) (action : Action)
    (execution : Execution) :
    Alike store stores (first.keepCounts number action execution)
      (second.keepCounts number action execution) := by
  unfold Run.keepCounts
  obtain ⟨absent, absent'⟩ | ⟨task, found, found'⟩ := alike.found number
  · simp only [absent, absent']
    exact alike
  · simp only [found, found']
    cases execution.counts with
    | none => exact alike
    | some counts =>
      dsimp only
      rw [show (task.withStore (stores number)).table = task.table from rfl,
        Task.keepCounts_withStore]
      cases task.keepCounts action task.table.fullName counts with
      | none => exact alike
      | some kept => exact alike.setTask number kept

theorem keepValidation (alike : Alike store stores first second) (number : Nat)
    (execution : Execution) :
    Alike store stores (first.keepValidation number execution)
      (second.keepValidation number execution) := by
  unfold Run.keepValidation
  obtain ⟨absent, absent'⟩ | ⟨task, found, found'⟩ := alike.found number
  · simp only [absent, absent']
    exact alike
  · simp only [found, found']
    cases execution.validation with
    | none => exact alike
    | some validation =>
      dsimp only
      rw [Task.keepValidation_withStore]
      cases task.keepValidation validation with
      | none => exact alike
      | some kept => exact alike.setTask number kept

theorem announce (alike : Alike store stores first second) (number : Nat)
    (changed : Option Progress) :
    Alike store stores (first.announce number changed) (second.announce number changed) := by
  unfold Run.announce
  obtain ⟨absent, absent'⟩ | ⟨task, found, found'⟩ := alike.found number
  · simp only [absent, absent']
    exact alike
  · simp only [found, found']
    cases changed with
    | none => exact alike
    | some progress =>
      dsimp only
      split
      · exact alike.tell _ _
      · exact alike

/-! ### Moves -/

section Engines

variable (executors : Engine → Executor ε) (checks checks' : Engine → Option StoreRef)
  (backend : Backend τ) (backend' : Backend υ)

/-- A pass begins with the same duties in both. -/
theorem perform_beginPass (alike : Alike store stores first second) :
    Option.Rel (Alike store stores)
      (first.perform (Executor.engines executors checks backend) .beginPass)
      (second.perform (Executor.engines executors checks' backend') .beginPass) := by
  have tables := alike.tables
  have scheduler := alike.scheduler
  have begun : Alike store stores
      { first with seen := first.scheduler.completions, dispatched := 0 }
      { second with seen := second.scheduler.completions, dispatched := 0 } :=
    { alike with
      seen := by
        show second.scheduler.completions = _
        rw [scheduler]
      dispatched := rfl }
  exact .some (tables ▸ begun.plan (Duty.pass second.tables))

/-- An action that is handed out begins in both. -/
theorem perform_dispatch (alike : Alike store stores first second) (number : Nat)
    (action : Action) :
    Option.Rel (Alike store stores)
      (first.perform (Executor.engines executors checks backend) (.dispatch number action))
      (second.perform (Executor.engines executors checks' backend') (.dispatch number action)) := by
  obtain ⟨absent, absent'⟩ | ⟨task, found, found'⟩ := alike.found number
  · simp only [Run.perform, absent, absent']
    exact .some alike
  · have told := alike.tell [.dispatched task.name action]
      [.dispatched (task.withStore (stores number)).name action]
    obtain ⟨here, there, ⟨changed, deliveries⟩, reports, reports', reported⟩ :=
      told.reportProgress number action .running
    simp only [Run.perform, found, found', reports, reports']
    have counted : Alike store stores { here with dispatched := here.dispatched + 1 }
        { there with dispatched := there.dispatched + 1 } :=
      { reported with dispatched := congrArg (· + 1) reported.dispatched }
    exact .some (counted.plan _)

/-- A pool takes or turns away the same actions in both. -/
theorem perform_submit (alike : Alike store stores first second) (number : Nat)
    (action : Action) :
    Option.Rel (Alike store stores)
      (first.perform (Executor.engines executors checks backend) (.submit number action))
      (second.perform (Executor.engines executors checks' backend') (.submit number action)) := by
  refine .some ?_
  rw [alike.task, alike.pools]
  cases first.tasks[number]? with
  | none => exact alike
  | some task =>
    have submitted := alike.setPool action.engine ((first.scheduler.pools.get
      action.engine).submit action.priority ⟨number, action, .call⟩).pool
    dsimp only [Option.map_some]
    split
    · exact submitted
    · exact (submitted.tell _ _).plan _

/-- A table is finished in both. -/
theorem perform_judge (alike : Alike store stores first second) (key : String) :
    Option.Rel (Alike store stores)
      (first.perform (Executor.engines executors checks backend) (.judge key))
      (second.perform (Executor.engines executors checks' backend') (.judge key)) := by
  have tables := alike.tables
  refine .some ?_
  rw [tables]
  cases first.tables.get? key with
  | none => exact alike
  | some group =>
    have ended : second.isEnded = first.isEnded := funext alike.isEnded
    dsimp only
    rw [ended]
    split
    · exact alike.finishTable executors checks checks' backend backend' key group
    · exact alike

/-- **A duty that is done in both runs keeps them alike.** -/
theorem perform (alike : Alike store stores first second) (duty : Duty) :
    Option.Rel (Alike store stores)
      (first.perform (Executor.engines executors checks backend) duty)
      (second.perform (Executor.engines executors checks' backend') duty) := by
  have scheduler := alike.scheduler
  have tables := alike.tables
  cases duty with
  | beginPass => exact alike.perform_beginPass executors checks checks' backend backend'
  | look number =>
    refine .some ?_
    rw [alike.isEnded]
    split
    · exact alike
    · exact alike.plan _
  | collect number =>
    refine .some ?_
    rw [alike.task]
    cases first.tasks[number]? with
    | none => exact alike
    | some task => exact alike.plan _
  | dispatch number action =>
    exact alike.perform_dispatch executors checks checks' backend backend' number action
  | countIn =>
    refine .some { alike with scheduler := ?_ }
    show ({ second.scheduler with inFlight := _ } : Scheduler) = _
    rw [scheduler]
    rfl
  | submit number action =>
    exact alike.perform_submit executors checks checks' backend backend' number action
  | refuse number action =>
    obtain ⟨here, there, ⟨changed, deliveries⟩, reports, reports', reported⟩ :=
      alike.reportProgress number action .failed
    simp only [Run.perform, reports, reports']
    exact .some (reported.plan _)
  | deliver number delivery =>
    exact .some (alike.deliver executors checks checks' backend backend' number delivery)
  | announce number progress => exact .some (alike.announce number (some progress))
  | countOut => exact .some alike.countOut
  | judge key => exact alike.perform_judge executors checks checks' backend backend' key
  | test =>
    refine .some ?_
    rw [tables, alike.dispatched, alike.seen, scheduler]
    split
    · exact alike.plan _
    · split
      · exact alike.plan _
      · exact alike.plan _
  | giveUp key =>
    refine .some ?_
    rw [tables]
    cases first.tables.get? key with
    | none => exact alike
    | some group => exact alike.giveUp executors checks checks' backend backend' key group
  | wait => exact .some (alike.plan _)
  | close engine =>
    refine .some ?_
    rw [alike.pools]
    exact alike.setPool engine _
  | join engine =>
    show Option.Rel _ (Option.map _ _)
      (((second.scheduler.pools.get engine).join?).map fun stopped =>
        (second.setPool engine stopped).tell [.poolStopped stopped.name])
    rw [alike.pools]
    cases (first.scheduler.pools.get engine).join? with
    | none => exact .none
    | some stopped => exact .some ((alike.setPool engine stopped).tell _ _)
  | unlisten =>
    refine .some { alike with tasks := ?_ }
    rw [alike.listed, alike.tasks]
    exact Task.foldl_modify_withStores (fun _ _ => rfl) stores first.listed first.tasks
  | conclude =>
    refine .some ?_
    exact alike.tell _ _

/-- The scheduling thread does the same duty in both runs. -/
theorem advance (alike : Alike store stores first second) :
    Option.Rel (Alike store stores)
      (first.advance (Executor.engines executors checks backend))
      (second.advance (Executor.engines executors checks' backend')) := by
  unfold Run.advance
  rw [alike.agenda]
  cases first.agenda with
  | nil => exact .none
  | cons duty rest =>
    have taken : Alike store stores { first with agenda := rest } { second with agenda := rest } :=
      { alike with agenda := rfl }
    exact taken.perform executors checks checks' backend backend' duty

/-- A worker goes on with the same job in both runs. -/
theorem work (alike : Alike store stores first second) (engine : Engine) (place : Nat) :
    Option.Rel (Alike store stores)
      (first.work (Executor.engines executors checks backend) engine place)
      (second.work (Executor.engines executors checks' backend') engine place) := by
  have goOn : ∀ {here : Run (ε × τ)} {there : Run (ε × υ)} (job : Job),
      Alike store stores here there → Option.Rel (Alike store stores)
        (some (here.setPool engine ((here.scheduler.pools.get engine).amend place job)))
        (some (there.setPool engine ((there.scheduler.pools.get engine).amend place job))) := by
    intro here there job alike
    rw [alike.pools]
    exact .some (alike.setPool engine _)
  unfold Run.work
  rw [alike.pools]
  cases (first.scheduler.pools.get engine).running[place]? with
  | none => exact .none
  | some ticket =>
    obtain ⟨number, priority, taskNumber, action, stage⟩ := ticket
    dsimp only
    obtain ⟨absent, absent'⟩ | ⟨task, found, found'⟩ := alike.found taskNumber
    · rw [absent, absent']
      exact .none
    · rw [found, found']
      dsimp only
      cases stage with
      | call =>
        obtain ⟨same, called⟩ :=
          alike.callEngine executors checks checks' backend backend' taskNumber task action
        dsimp only
        rw [same]
        exact goOn _ called
      | keepCounts execution => exact goOn _ (alike.keepCounts taskNumber action execution)
      | keepValidation execution => exact goOn _ (alike.keepValidation taskNumber execution)
      | report execution =>
        obtain ⟨here, there, ⟨changed, deliveries⟩, reports, reports', reported⟩ :=
          alike.reportProgress taskNumber action execution.progress
        simp only [reports, reports']
        exact goOn _ reported
      | deliver execution changed deliveries =>
        cases deliveries with
        | nil => exact goOn _ alike
        | cons delivery rest =>
          exact goOn _
            (alike.deliver executors checks checks' backend backend' taskNumber delivery)
      | announce execution changed => exact goOn _ (alike.announce taskNumber changed)
      | countOut execution => exact goOn _ alike.countOut
      | leave execution => exact .some ((alike.setPool engine _).tell _ _)

/-- A free worker takes the same job in both runs. -/
theorem takeJob (alike : Alike store stores first second) (engine : Engine) :
    Option.Rel (Alike store stores) (first.takeJob engine) (second.takeJob engine) := by
  unfold Run.takeJob
  rw [alike.pools]
  cases (first.scheduler.pools.get engine).take? with
  | none => exact .none
  | some taken => exact .some (alike.setPool engine _)

/-- **A move of one run is a move of the other.** -/
theorem step (alike : Alike store stores first second) (move : Move) :
    Option.Rel (Alike store stores)
      (first.step (Executor.engines executors checks backend) move)
      (second.step (Executor.engines executors checks' backend') move) := by
  cases move with
  | advance => exact alike.advance executors checks checks' backend backend'
  | take engine => exact alike.takeJob engine
  | work engine place => exact alike.work executors checks checks' backend backend' engine place

/-- **So are some moves, one after the other.** -/
theorem steps (alike : Alike store stores first second) (moves : List Move) :
    Option.Rel (Alike store stores)
      (first.steps (Executor.engines executors checks backend) moves)
      (second.steps (Executor.engines executors checks' backend') moves) := by
  induction moves generalizing first second with
  | nil => exact .some alike
  | cons move rest hyp =>
    have step := alike.step executors checks checks' backend backend' move
    unfold Run.steps
    generalize first.step _ move = here at step
    generalize second.step _ move = there at step
    cases step with
    | none => exact .none
    | some alike => exact hyp alike

end Engines

end Alike

end Run

/-! ### Whole runs -/

namespace Scheduler

/-- Exchange the store of a scheduler. -/
def withStore (scheduler : Scheduler) (store : Option StoreRef) : Scheduler :=
  { scheduler with store := store }

variable (scheduler : Scheduler) (store : Option StoreRef)

/-- Pools are started without a look at the store. -/
theorem startPools_withStore (engines : List Engine) :
    (scheduler.withStore store).startPools engines =
      ((scheduler.startPools engines).1.withStore store, (scheduler.startPools engines).2) := by
  induction engines generalizing scheduler with
  | nil => rfl
  | cons engine rest hyp =>
    unfold startPools
    rw [show (scheduler.withStore store).pools = scheduler.pools from rfl]
    dsimp only
    split
    · exact hyp scheduler
    · cases (scheduler.pools.get engine).start with
      | error error => rfl
      | ok started =>
        have later := hyp (scheduler.setPool engine started)
        dsimp only
        rw [show (scheduler.withStore store).setPool engine started =
          (scheduler.setPool engine started).withStore store from rfl, later]

/-- Pools are stopped without a look at the store. -/
theorem stopPools_withStore (engines : List Engine) :
    (scheduler.withStore store).stopPools engines =
      ((scheduler.stopPools engines).1.withStore store, (scheduler.stopPools engines).2) := by
  induction engines generalizing scheduler with
  | nil => rfl
  | cons engine rest hyp =>
    unfold stopPools
    rw [show (scheduler.withStore store).pools = scheduler.pools from rfl]
    cases (scheduler.pools.get engine).close.join? with
    | none => exact hyp scheduler
    | some stopped =>
      have later := hyp (scheduler.setPool engine stopped)
      dsimp only
      rw [show (scheduler.withStore store).setPool engine stopped =
        (scheduler.setPool engine stopped).withStore store from rfl, later]

/-- Tasks are grouped without a look at their stores. -/
theorem ofTasks_withStores (stores : Nat → Option StoreRef) (tasks : List Task)
    (listed : List Nat) :
    Grouping.ofTasks (Task.withStores stores tasks) listed = Grouping.ofTasks tasks listed := by
  have found : ∀ number : Nat, (Task.withStores stores tasks)[number]? =
      (tasks[number]?).map fun task => task.withStore (stores number) :=
    fun _ => List.getElem?_mapIdx
  unfold Grouping.ofTasks
  congr 1
  funext tables number
  rw [found]
  cases tasks[number]? <;> rfl

/-- **Stores make no difference to a run.** Let the store of a scheduler, those of its tasks and
those of its verifications be exchanged for others or taken away, and let all of them answer as they
like. Then either no run begins, for the same reason, or both runs begin, and whatever moves are
made in the one can be made in the other. These make the same calls with the same results, and leave
the same tasks, but for their stores, and the same report. -/
theorem stores_make_no_difference {ε τ υ : Type} (executors : Engine → Executor ε)
    (checks checks' : Engine → Option StoreRef) (backend : Backend τ) (backend' : Backend υ)
    (tasks : List Task) (stores : Nat → Option StoreRef) (listed : List Nat) (own : ε) (world : τ)
    (world' : υ) :
    (∃ error stopped notices,
      scheduler.launch tasks listed (own, world) = .refused error stopped notices ∧
      (scheduler.withStore store).launch (Task.withStores stores tasks) listed (own, world') =
        .refused error (stopped.withStore store) notices) ∨
    ∃ first second,
      scheduler.launch tasks listed (own, world) = .started first ∧
      (scheduler.withStore store).launch (Task.withStores stores tasks) listed (own, world') =
        .started second ∧
      ∀ moves, Option.Rel (Run.Alike store stores)
        (first.steps (Executor.engines executors checks backend) moves)
        (second.steps (Executor.engines executors checks' backend') moves) := by
  have engines : ((scheduler.withStore store).hasSource &&
      (scheduler.withStore store).hasDestination) =
        (scheduler.hasSource && scheduler.hasDestination) := rfl
  unfold launch
  rw [startPools_withStore, ofTasks_withStores, engines]
  cases scheduler.hasSource && scheduler.hasDestination with
  | false => exact .inl ⟨_, _, _, rfl, rfl⟩
  | true =>
    obtain ⟨ready, notices, error⟩ := scheduler.startPools Engine.all
    cases error with
    | some error =>
      refine .inl ⟨error, (ready.stopPools Engine.all).1,
        notices ++ (ready.stopPools Engine.all).2, rfl, ?_⟩
      dsimp only
      rw [stopPools_withStore]
      rfl
    | none =>
      refine .inr ⟨_, _, rfl, rfl, fun moves => Run.Alike.steps _ _ _ _ _ ?_ moves⟩
      refine ⟨rfl, ?_, rfl, rfl, rfl, rfl, rfl, rfl, rfl, rfl⟩
      exact Task.foldl_modify_withStores (fun _ _ => rfl) stores listed tasks

end Scheduler

end TableMigration
