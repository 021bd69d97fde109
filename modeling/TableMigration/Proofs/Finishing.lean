/-
**What is planned can be finished.**

* `Planner.Skips` — nothing is left of a request that only adds partitions to a table that has none.
  The tasks of a plan are fresh, and only such a request gives tasks without an action
  (`Planner.plan_given`).
* `Custody.Certain.ended` — a task that nothing will happen to, and that has an action, has come to
  its end.
* `Run.finishes_plan` — so the run of a plan leaves exactly those tasks new that have nothing to do,
  whatever the engines answer and whatever the pools refuse, and reports exactly their tables as
  unfinished.
-/

import TableMigration.Proofs.Migration

namespace TableMigration

/-! ### Tasks with nothing to do -/

namespace Planner

variable {σ : Type} {planner : Planner} {backend : Backend σ} {actions : List Action}
  {table : Table} {config : TableConfig} {tokens : TokenSource} {tasks : List Task}

/-- Whether nothing is left of a request for a table: it only adds partitions to one that is
flat. -/
def Skips (actions : List Action) (table : Table) : Prop :=
  table.isPartitioned = false ∧ ∀ action ∈ actions, action = .addPartition

/-- Whether a task is new, and has nothing to do only if nothing is left of the request. -/
structure Given (actions : List Action) (task : Task) : Prop where
  fresh : task.Fresh
  idle : task.actions = [] ↔ Skips actions task.table

theorem actions_task_eq_nil (planner : Planner) (name : String) (table : Table)
    (config : TableConfig) (actions : List Action) :
    (planner.task name table config actions).actions = [] ↔ actions = [] := by
  simp [List.eq_nil_iff_forall_not_mem, Task.mem_actions, has_task]

theorem given_task (planner : Planner) (name : String) (config : TableConfig)
    {kept : List Action} (idle : kept = [] ↔ Skips actions table) :
    Given actions (planner.task name table config kept) where
  fresh := planner.fresh_task ..
  idle := by rw [actions_task_eq_nil, table_task, idle]

/-- The tasks for a table are given by the request. -/
theorem planTable_given (requested : actions ≠ [])
    (planned : (planner.planTable table config actions tokens).tasks = .ok tasks) :
    ∀ task ∈ tasks, Given actions task := by
  cases partitioned : table.isPartitioned with
  | false =>
    rw [planner.planTable_of_flat config actions tokens partitioned] at planned
    cases planned
    refine List.forall_mem_singleton.mpr (given_task _ _ _ ?_)
    simp [Skips, partitioned]
  | true =>
    by_cases bare : table.partitions = []
    · rw [planner.planTable_of_empty config actions tokens partitioned bare] at planned
      cases planned
      refine List.forall_mem_singleton.mpr (given_task _ _ _ ?_)
      simp [Skips, partitioned]
    · rw [planner.planTable_of_partitions config actions tokens partitioned bare] at planned
      cases planned
      intro task member
      obtain ⟨_, _, rfl⟩ := List.mem_map.mp member
      refine given_task _ _ _ ⟨fun empty => absurd empty requested, fun skips => ?_⟩
      exact absurd (partitioned.symm.trans skips.1) (by decide)

/-- A table that is given up gets no task. -/
theorem tasks_giveUp (planner : Planner) (backend : Backend σ) (table : Table) (notice : Notice)
    (tokens : TokenSource) (state : σ) :
    (planner.giveUp backend table notice tokens state).tasks = [] := by
  unfold giveUp
  split <;> rfl

theorem planNext_given (requested : actions ≠ []) (table : Table) (tokens : TokenSource)
    (state : σ) :
    ∀ task ∈ (planner.planNext backend actions table tokens state).tasks, Given actions task := by
  have fails : ∀ notice tokens state,
      ∀ task ∈ (planner.giveUp backend table notice tokens state).tasks, Given actions task := by
    intro notice tokens state
    rw [tasks_giveUp]
    exact List.forall_mem_nil _
  unfold planNext
  rcases planner.readConfig backend table state with ⟨outcome, read, after⟩
  cases outcome with
  | error reason => exact fails _ _ _
  | ok config =>
    dsimp only
    split
    · rename_i tasks planned
      exact planTable_given requested planned
    · exact fails _ _ _

theorem planEach_given (requested : actions ≠ []) (tables : List Table) (tokens : TokenSource)
    (state : σ) :
    ∀ task ∈ (planner.planEach backend actions tables tokens state).tasks, Given actions task := by
  induction tables generalizing tokens state with
  | nil => exact List.forall_mem_nil _
  | cons table rest hyp =>
    exact List.forall_mem_append.mpr ⟨planNext_given requested table tokens state, hyp _ _⟩

/-- **A plan for some actions gives fresh tasks**, which have something to do unless nothing is left
of the request. -/
theorem plan_given (planner : Planner) (backend : Backend σ) (requested : actions ≠ [])
    (tables : List Table) (tokens : TokenSource) (state : σ) :
    ∃ planned, planner.plan backend tables actions tokens state = .ok planned ∧
      ∀ task ∈ planned.tasks, Given actions task := by
  rw [planner.plan_of_actions backend requested]
  exact ⟨_, rfl, planEach_given requested tables tokens state⟩

end Planner

/-! ### Tasks with something to do -/

/-- **A task that nothing will happen to has come to its end**, if it has an action. -/
theorem Custody.Certain.ended {allows : Brief → Execution → Prop} {start custody : Custody}
    {acts : List Act} {number : Nat} {task : Task} (certain : Certain allows start acts custody)
    (away : custody.items = 0) (left : custody.Left number)
    (found : custody.tasks number = some task) (busy : task.actions ≠ []) :
    task.progress.isTerminal = true := by
  have summed := certain.summed number task found
  by_cases all : task.watermark = none
  · obtain ⟨action, member⟩ := List.exists_mem_of_ne_nil _ busy
    have done : task.progress = .succeeded := summed.succeeded.mpr
      ⟨⟨action, Task.mem_actions.mp member⟩, Task.watermark_eq_none.mp all⟩
    rw [done]
    rfl
  · -- the lowest action that has not succeeded was handed out, and can only have failed
    obtain ⟨action, waits, cleared⟩ := Task.exists_cleared_of_pending all
    obtain ⟨progress, now, apart⟩ := Task.isPending_iff.mp waits
    have present : action ∈ task.actions := Task.mem_actions_of_isPending waits
    have failed : progress = .failed := by
      cases certain.stands away found present with
      | new new => exact absurd new (certain.not_new away left found cleared)
      | refused failed =>
        exact Option.some.inj (now.symm.trans failed)
      | executed execution result final =>
        cases now.symm.trans result
        cases result : execution.progress with
        | failed => rfl
        | succeeded => exact absurd result apart
        | new | running => rw [result] at final; cases final
    rw [summed.failed.mpr ⟨action, failed ▸ now⟩]
    rfl

/-! ### Runs of plans -/

namespace Run

variable {σ : Type} {engines : Engines σ} {planner : Planner} {scheduler : Scheduler}
  {actions : List Action}

/-- Whatever engines answer, it leaves nothing open. -/
theorem keeps_finishing (engines : Engines σ) (verifiesItself : Bool) :
    Keeps engines verifiesItself fun _ execution => execution.progress.isTerminal = true where
  answers run number task action _ := Campaign.finishes_callEngine engines run number task action
  finishing _ _ := id

/-- Whether a task was left as its request has it: new with nothing to do, and at its end
otherwise. -/
structure Ends (actions : List Action) (task after : Task) : Prop where
  kind : after.SameKind task
  idle : Planner.Skips actions task.table → after.progress = .new
  busy : ¬ Planner.Skips actions task.table → after.progress.isTerminal = true

/-- **A run that is over leaves every listed task as its request has it.** -/
theorem ends_of_over {tasks : List Task} {listed : List Nat} {state : σ} {run last : Run σ}
    {moves : List Move} (begins : scheduler.Begins tasks listed state run)
    (given : ∀ task ∈ tasks, Planner.Given actions task)
    (reached : run.steps engines moves = some last) (past : last.isOver = true) {number : Nat}
    (member : number ∈ listed) {task : Task} (found : tasks[number]? = some task) :
    ∃ after, last.tasks[number]? = some after ∧ Ends actions task after := by
  have fresh : ∀ task ∈ tasks, task.Fresh := fun task member => (given task member).fresh
  have steady := (steady_begins begins fresh _).steps (keeps_finishing engines _) reached
  have began : run.ledger.custody.tasks number = some task.deaf := by
    rw [Campaign.custody_begins begins]
    exact congrArg (Option.map Task.deaf) found
  obtain ⟨after, known, kind⟩ := steady.present number task.deaf began
  obtain ⟨away, left⟩ := steady.left past (begins.grouped ▸ Grouping.has_ofTasks member found)
  have summed := steady.certain.summed number after known
  have ended := steady.certain.ended away left known
  obtain ⟨heard, here, rfl⟩ := Option.map_eq_some_iff.mp known
  have kind : heard.SameKind task := heard.sameKind_deaf.1.trans (kind.trans task.sameKind_deaf.2)
  have idle := (given task (List.mem_of_getElem? found)).idle
  rw [← kind.actions] at idle
  refine ⟨heard, here, kind, fun skips => summed.new.mpr fun action progress now => ?_,
    fun keeps => ended (mt idle.mp keeps)⟩
  have present : action ∈ heard.actions :=
    Task.mem_actions.mpr ((Task.has_eq ..).trans (Option.isSome_iff_exists.mpr ⟨progress, now⟩))
  rw [idle.mpr skips] at present
  cases present

/-- **Whatever is planned can be finished**, but for tasks that have nothing to do. A plan for some
actions succeeds, its tasks can be run, and the run can be brought to its end from wherever it has
come, whatever the engines answer and the pools refuse. Then every task has come to its end that has
something to do, and the tables of the others are reported as unfinished. -/
theorem finishes_plan (requested : actions ≠ []) (able : scheduler.Able) (planner : Planner)
    (engines : Engines σ) (tables : List Table) (tokens : TokenSource) (state : σ) :
    ∃ planned, planner.plan engines.backend tables actions tokens state = .ok planned ∧
      ∀ listed : List Nat, (∀ number < planned.tasks.length, number ∈ listed) →
        ∃ run, scheduler.launch planned.tasks listed planned.state = .started run ∧
          ∀ moves last, run.steps engines moves = some last →
            (∃ more final, last.steps engines more = some final ∧ final.isOver = true) ∧
            (last.isOver = true →
              (∀ (number : Nat) task, planned.tasks[number]? = some task →
                ∃ after, last.tasks[number]? = some after ∧ Ends actions task after) ∧
              ∀ name, name ∈ last.report.unfinished ↔ ∃ task ∈ planned.tasks,
                Planner.Skips actions task.table ∧ task.table.fullName = name) := by
  obtain ⟨planned, plans, given⟩ := planner.plan_given engines.backend requested tables tokens state
  refine ⟨planned, plans, fun listed all => ?_⟩
  obtain ⟨run, launched⟩ := able.starts planned.tasks listed planned.state
  refine ⟨run, launched, fun moves last reached => ?_⟩
  have begins := able.resting.begins launched
  have faithful : last.Faithful planned.tasks listed ([] ++ run.trace engines moves) :=
    begins.faithful.steps reached
  refine ⟨faithful.healthy.completes engines, fun past => ?_⟩
  have ends : ∀ (number : Nat) task, planned.tasks[number]? = some task →
      ∃ after, last.tasks[number]? = some after ∧ Ends actions task after := by
    intro number task found
    have member := all number (List.getElem?_eq_some_iff.mp found).1
    exact ends_of_over begins given reached past member found
  refine ⟨ends, fun name => ?_⟩
  rw [(faithful.tells past).unfinished]
  constructor
  · rintro ⟨after, mine, open_⟩
    obtain ⟨number, listed, known⟩ := (mem_ofTable faithful.tables).mp mine
    obtain ⟨_, task, found, named⟩ := Task.mem_listedOf.mp listed
    obtain ⟨after', known', ends⟩ := ends number task found
    cases known.symm.trans known'
    refine ⟨task, List.mem_of_getElem? found, ?_, named⟩
    by_contra keeps
    rw [ends.busy keeps] at open_
    cases open_
  · rintro ⟨task, member, skips, named⟩
    obtain ⟨number, found⟩ := List.mem_iff_getElem?.mp member
    obtain ⟨after, known, ends⟩ := ends number task found
    have listed := all number (List.getElem?_eq_some_iff.mp found).1
    refine ⟨after, (mem_ofTable faithful.tables).mpr ⟨number, ?_, known⟩, ?_⟩
    · exact Task.mem_listedOf.mpr ⟨listed, task, found, named⟩
    · rw [ends.idle skips]
      rfl

/-- A table without partitions and without columns for them. -/
def flatTable : Table :=
  ⟨"d", "f", [], []⟩

/-- A store with this table and one with two partitions. -/
def bothStore : FaultyStore :=
  ⟨mixedStore.memory.put "d" "f" (.register flatTable ⟨none⟩), fun _ => none⟩

/-- The partitions are added, and the table without any is given up. -/
def bothMoves : List Move :=
  List.replicate 12 .advance ++ jobMoves .destination ++ .work .destination 0 ::
    List.replicate 17 .advance

theorem finishes_plan_both : ∃ planned run last flat mixed,
    [Action.addPartition] ≠ [] ∧ storedScheduler.Able ∧
    storedPlanner.plan FaultyStore.backend [flatTable, mixedTable] [.addPartition] .chance
      bothStore = .ok planned ∧
    storedScheduler.launch planned.tasks [0, 1] planned.state = .started run ∧
    run.steps (Engines.ofCensus mixedCensus) bothMoves = some last ∧ last.isOver = true ∧
    last.tasks[0]? = some flat ∧ flat.progress = .new ∧
    last.tasks[1]? = some mixed ∧ mixed.progress.isTerminal = true ∧
    ∀ name, name ∈ last.report.unfinished ↔ name = "d.f" := by
  have goes : (match storedPlanner.plan FaultyStore.backend [flatTable, mixedTable]
        [.addPartition] .chance bothStore with
      | .ok planned => decide (planned.tasks.map Task.table = [flatTable, mixedTable]) &&
        (storedScheduler.launch planned.tasks [0, 1] planned.state).leads
          (Engines.ofCensus mixedCensus) bothMoves fun _ last => last.isOver
      | .error _ => false) = true := by decide +kernel
  have requested : [Action.addPartition] ≠ [] := by decide
  have able : storedScheduler.Able :=
    Scheduler.able_create _ _ fun _ => ⟨Nat.one_pos, Nat.one_pos⟩
  obtain ⟨planned, plans, runs⟩ := finishes_plan requested able storedPlanner
    (Engines.ofCensus mixedCensus) [flatTable, mixedTable] .chance bothStore
  have plans : storedPlanner.plan FaultyStore.backend [flatTable, mixedTable] [.addPartition]
      .chance bothStore = .ok planned := plans
  rw [plans] at goes
  obtain ⟨tables, goes⟩ := Bool.and_eq_true_iff.mp goes
  obtain ⟨flat, others, tasks, here, tables⟩ := List.map_eq_cons_iff.mp (of_decide_eq_true tables)
  obtain ⟨mixed, rest, rfl, there, nothing⟩ := List.map_eq_cons_iff.mp tables
  cases List.map_eq_nil_iff.mp nothing
  obtain ⟨run, launched, runs⟩ := runs [0, 1] (by simp [tasks]; omega)
  obtain ⟨_, last, launched', reached, past⟩ := Launch.of_leads goes
  cases launched.symm.trans launched'
  obtain ⟨_, ends⟩ := runs bothMoves last reached
  obtain ⟨ends, unfinished⟩ := ends past
  have skips : Planner.Skips [.addPartition] flatTable := by
    simp [Planner.Skips, flatTable, Table.isPartitioned]
  have keeps : ¬ Planner.Skips [.addPartition] mixedTable := by
    simp [Planner.Skips, mixedTable, Table.isPartitioned]
  have fullName : flatTable.fullName = "d.f" := rfl
  obtain ⟨one, known, left⟩ := ends 0 flat (by rw [tasks]; rfl)
  obtain ⟨two, known', left'⟩ := ends 1 mixed (by rw [tasks]; rfl)
  refine ⟨planned, run, last, one, two, requested, able, plans, launched, reached, past, known,
    left.idle (here ▸ skips), known', left'.busy (there ▸ keeps), fun name => ?_⟩
  rw [unfinished, tasks]
  simp [here, there, skips, keeps, fullName, eq_comm]

/-- A flat table for which only partitions are to be added is planned, and never finished. -/
theorem flat_not_finished : ∃ planned run last,
    storedPlanner.plan FaultyStore.backend [flatTable] [.addPartition] .chance bothStore =
      .ok planned ∧
    storedScheduler.Able ∧
    storedScheduler.launch planned.tasks [0] planned.state = .started run ∧
    run.steps (Engines.ofCensus mixedCensus) (List.replicate 14 .advance) = some last ∧
    last.isOver = true ∧ last.tasks.map Task.progress = [.new] ∧
    last.report.unfinished = ["d.f"] := by
  have goes : (match storedPlanner.plan FaultyStore.backend [flatTable] [.addPartition] .chance
        bothStore with
      | .ok planned =>
        (storedScheduler.launch planned.tasks [0] planned.state).leads
          (Engines.ofCensus mixedCensus) (List.replicate 14 .advance) fun _ last => last.isOver ∧
            last.tasks.map Task.progress = [.new] ∧ last.report.unfinished = ["d.f"]
      | .error _ => false) = true := by decide +kernel
  have able : storedScheduler.Able :=
    Scheduler.able_create _ _ fun _ => ⟨Nat.one_pos, Nat.one_pos⟩
  split at goes
  · rename_i planned plans
    obtain ⟨run, last, launched, reached, ends⟩ := Launch.of_leads goes
    obtain ⟨past, progress, unfinished⟩ := of_decide_eq_true ends
    exact ⟨planned, run, last, plans, able, launched, reached, past, progress, unfinished⟩
  · cases goes

end Run

end TableMigration
