/-
**One run after another.**

* A `Campaign` is some schedulers that take turns in running the same tasks. A `Campaign.Turn`
  begins a run, makes a move in it, or takes note that it is over.
* `Campaign.Sane.step_custody` — a turn is a step of the custody of the tasks, whichever scheduler
  runs them: between two runs no action is on its way.
* `Campaign.conduct` — whatever the schedulers, engines and queues do, an action is executed at most
  once, only after everything below it, with the counts of what is below it in place, and never if
  it was refused or if its task was found ended.
-/

import TableMigration.Proofs.Conduct
import TableMigration.Proofs.Workers

namespace TableMigration

/-! ### Campaigns -/

/-- Some schedulers and the tasks that they run, one scheduler at a time. -/
structure Campaign (σ : Type) where
  schedulers : List Scheduler
  tasks : List Task
  state : σ
  /-- The run that goes on, if there is one, with the number of its scheduler. -/
  active : Option (Nat × Run σ)

namespace Campaign

variable {σ : Type}

/-- What happens next in a campaign. -/
inductive Turn where
  /-- A scheduler is asked to run some of the tasks. -/
  | launch (scheduler : Nat) (listed : List Nat)
  /-- The run makes a move. -/
  | move (move : Run.Move)
  /-- The run is over. -/
  | conclude

/-- Take a turn, if it can be taken. -/
def step (engines : Nat → Engines σ) (campaign : Campaign σ) : Turn → Option (Campaign σ)
  | .launch number listed =>
    match campaign.active, campaign.schedulers[number]? with
    | none, some scheduler =>
      match scheduler.launch campaign.tasks listed campaign.state with
      | .started run => some { campaign with active := some (number, run) }
      | .refused _ stopped _ =>
        some { campaign with schedulers := campaign.schedulers.set number stopped }
    | _, _ => none
  | .move move =>
    match campaign.active with
    | none => none
    | some (number, run) =>
      (run.step (engines number) move).map fun next =>
        { campaign with active := some (number, next) }
  | .conclude =>
    match campaign.active with
    | none => none
    | some (number, run) =>
      if run.isOver then
        some ⟨campaign.schedulers.set number run.scheduler, run.tasks, run.state, none⟩
      else none

/-- Take turns one after the other. -/
def steps (engines : Nat → Engines σ) (campaign : Campaign σ) : List Turn → Option (Campaign σ)
  | [] => some campaign
  | turn :: rest => (campaign.step engines turn).bind fun next => next.steps engines rest

/-- The acts of a turn. -/
def acts (engines : Nat → Engines σ) (campaign : Campaign σ) : Turn → List Act
  | .move move =>
    match campaign.active with
    | none => []
    | some (number, run) => run.acts (engines number) move
  | _ => []

/-- The acts of some turns, one after the other. -/
def trace (engines : Nat → Engines σ) (campaign : Campaign σ) : List Turn → List Act
  | [] => []
  | turn :: rest =>
    match campaign.step engines turn with
    | none => []
    | some next => campaign.acts engines turn ++ next.trace engines rest

/-- The tasks as they are now. -/
def current (campaign : Campaign σ) : List Task :=
  match campaign.active with
  | none => campaign.tasks
  | some (_, run) => run.tasks

/-- Who has which action of the tasks. Between two runs nobody has any. -/
def custody (campaign : Campaign σ) : Custody :=
  match campaign.active with
  | none => ⟨fun number => (campaign.tasks[number]?).map Task.deaf, [], 0⟩
  | some (_, run) => run.ledger.custody

/-- Whether all schedulers that do not run are at rest, and the one that does goes on properly. -/
structure Sane (campaign : Campaign σ) : Prop where
  resting : ∀ scheduler ∈ campaign.schedulers, scheduler.AtRest
  running : ∀ number run, campaign.active = some (number, run) →
    run.Joining ∧ Duty.Orderly run.agenda

theorem tasks_custody (campaign : Campaign σ) (number : Nat) :
    campaign.custody.tasks number = (campaign.current[number]?).map Task.deaf := by
  unfold custody current
  split <;> rfl

/-! ### Turns -/

variable {engines : Nat → Engines σ} {campaign next : Campaign σ}

/-- Results that leave nothing open. -/
def Finishes (_ : Nat) (_ : Task) (_ : Action) (execution : Execution) : Prop :=
  execution.progress.isTerminal = true

theorem finishes_result (reply : EngineReply) : reply.result.progress.isTerminal = true := by
  cases reply with
  | threw reason => rfl
  | returned execution =>
    show (if execution.progress.isTerminal then execution else _ : Execution).progress.isTerminal = true
    split
    · assumption
    · rfl

theorem finishes_verify {backend : Backend σ} (store : Option StoreRef) (task : Task)
    (action : Action) (state : σ) :
    (task.verify backend store action state).1.progress.isTerminal = true := by
  unfold Task.verify
  split
  · rfl
  · split
    · split <;> rfl
    · show (Task.verdict _).progress.isTerminal = true
      unfold Task.verdict
      dsimp only
      split <;> rfl

/-- Every call comes back with a result that leaves nothing open. -/
theorem finishes_callEngine (engines : Engines σ) (run : Run σ) (number : Nat) (task : Task)
    (action : Action) :
    Finishes number task action (run.callEngine engines number task action).1 := by
  unfold Run.callEngine
  split
  · exact finishes_verify _ task action _
  · exact finishes_result _

/-- So every move of a run is a step of its ledger in which nothing is left open. -/
theorem step_finishes {engines : Engines σ} {run next : Run σ} {move : Run.Move}
    (moved : run.step engines move = some next) :
    run.ledger.Step Finishes (run.acts engines move) next.ledger :=
  Run.step_ledger moved fun number task action =>
    finishes_callEngine engines run number task action

/-- A run begins with nothing on its way, and with the tasks as they were. -/
theorem custody_begins {scheduler : Scheduler} {tasks : List Task} {listed : List Nat} {state : σ}
    {run : Run σ} (begins : scheduler.Begins tasks listed state run) :
    run.ledger.custody = ⟨fun number => (tasks[number]?).map Task.deaf, [], 0⟩ := by
  have plain : ∀ duty ∈ run.agenda, duty.Plain := by
    intro duty planned
    rw [begins.agenda] at planned
    split at planned
    · exact Duty.plain_of_rank ((Duty.rank_closing planned).symm ▸ by decide)
    · rw [List.mem_singleton.mp planned]
      exact ⟨rfl, rfl⟩
  have listen : ∀ task : Task, ({ task with listener := some .scheduler } : Task).deaf = task.deaf :=
    fun _ => rfl
  refine Custody.ext (funext fun number => ?_) ?_ ?_
  · show (run.tasks[number]?).map Task.deaf = _
    rw [begins.heard]
    exact Task.deaf_modify listen listed tasks number
  · exact List.filterMap_eq_nil_iff.mpr fun duty planned => (plain duty planned).2
  · show Ledger.items run.agenda run.scheduler.pools.jobs = 0
    unfold Ledger.items
    rw [begins.jobs, List.filterMap_eq_nil_iff.mpr fun duty planned => (plain duty planned).1]
    rfl

/-- A run ends with nothing on its way. -/
theorem custody_over {run : Run σ} (joining : run.Joining) (past : run.isOver = true) :
    run.ledger.custody = ⟨fun number => (run.tasks[number]?).map Task.deaf, [], 0⟩ := by
  have agenda : run.agenda = [] := List.isEmpty_iff.mp past
  refine Custody.ext rfl ?_ ?_
  · show run.agenda.filterMap Duty.looked? = []
    rw [agenda]
    rfl
  · show Ledger.items run.agenda run.scheduler.pools.jobs = 0
    rw [agenda, Run.jobs_of_empty fun engine => (joining.empty past engine).2]
    rfl

/-- What a turn can be. -/
inductive Takes (engines : Nat → Engines σ) (campaign : Campaign σ) : Turn → Campaign σ → Prop
  | launch {number listed scheduler run} (idle : campaign.active = none)
      (known : campaign.schedulers[number]? = some scheduler)
      (launched : scheduler.launch campaign.tasks listed campaign.state = .started run) :
      Takes engines campaign (.launch number listed) { campaign with active := some (number, run) }
  | refuse {number listed scheduler error stopped notices} (idle : campaign.active = none)
      (known : campaign.schedulers[number]? = some scheduler)
      (launched : scheduler.launch campaign.tasks listed campaign.state =
        .refused error stopped notices) :
      Takes engines campaign (.launch number listed)
        { campaign with schedulers := campaign.schedulers.set number stopped }
  | move {move number run after} (active : campaign.active = some (number, run))
      (moved : run.step (engines number) move = some after) :
      Takes engines campaign (.move move) { campaign with active := some (number, after) }
  | conclude {number run} (active : campaign.active = some (number, run))
      (past : run.isOver = true) :
      Takes engines campaign .conclude
        ⟨campaign.schedulers.set number run.scheduler, run.tasks, run.state, none⟩

theorem takes_of_step {turn : Turn} (taken : campaign.step engines turn = some next) :
    Takes engines campaign turn next := by
  unfold step at taken
  split at taken
  · split at taken
    · rename_i idle known
      split at taken
      · rename_i launched
        cases taken
        exact .launch idle known launched
      · rename_i launched
        cases taken
        exact .refuse idle known launched
    · cases taken
  · split at taken
    · cases taken
    · rename_i active
      simp only [Option.map_eq_some_iff] at taken
      obtain ⟨after, moved, rfl⟩ := taken
      exact .move active moved
  · split at taken
    · cases taken
    · rename_i active
      split at taken
      · rename_i past
        cases taken
        exact .conclude active past
      · cases taken

theorem custody_active {number : Nat} {run : Run σ}
    (active : campaign.active = some (number, run)) : campaign.custody = run.ledger.custody := by
  unfold custody
  rw [active]

/-- **A turn is a step of the custody.** -/
theorem Sane.step_custody (sane : campaign.Sane) {turn : Turn}
    (taken : campaign.step engines turn = some next) :
    campaign.custody.Step Finishes (campaign.acts engines turn) next.custody := by
  cases takes_of_step taken with
  | @launch number listed scheduler run idle known launched =>
    have begins := (sane.resting scheduler (List.mem_of_getElem? known)).begins launched
    have before : campaign.custody =
        ⟨fun number => (campaign.tasks[number]?).map Task.deaf, [], 0⟩ := by
      unfold custody
      rw [idle]
    show campaign.custody.Step Finishes [] run.ledger.custody
    rw [custody_begins begins, before]
    exact .quiet
  | refuse idle known launched => exact .quiet
  | @move move number run after active moved =>
    have acts : campaign.acts engines (.move move) = run.acts (engines number) move := by
      unfold acts
      rw [active]
    rw [acts, custody_active active]
    exact (step_finishes moved).custody (fun _ _ _ _ => id) (sane.running number run active).2
  | conclude active past =>
    rw [custody_active active, custody_over (sane.running _ _ active).1 past]
    exact .quiet

/-- A campaign stays sane. -/
theorem Sane.step (sane : campaign.Sane) {turn : Turn}
    (taken : campaign.step engines turn = some next) : next.Sane := by
  cases takes_of_step taken with
  | @launch number listed scheduler run idle known launched =>
    have begins := (sane.resting scheduler (List.mem_of_getElem? known)).begins launched
    refine ⟨sane.resting, fun _ _ active => ?_⟩
    cases active
    exact ⟨begins.joining, begins.orderly⟩
  | @refuse number listed scheduler error stopped notices idle known launched =>
    refine ⟨fun other member => ?_, sane.running⟩
    rcases List.mem_or_eq_of_mem_set member with old | rfl
    · exact sane.resting other old
    · exact (sane.resting scheduler (List.mem_of_getElem? known)).refused launched
  | @move move number run after active moved =>
    obtain ⟨joining, orderly⟩ := sane.running number run active
    refine ⟨sane.resting, fun _ _ active => ?_⟩
    cases active
    exact ⟨joining.step moved, (step_finishes moved).orderly orderly⟩
  | @conclude number run active past =>
    refine ⟨fun other member => ?_, fun _ _ active => by cases active⟩
    rcases List.mem_or_eq_of_mem_set member with old | rfl
    · exact sane.resting other old
    · intro engine
      obtain ⟨closed, empty⟩ := (sane.running number run active).1.empty past engine
      exact ⟨empty, .inr closed⟩

/-! ### Whole campaigns -/

variable {start now : Campaign σ} {turns : List Turn} {acts : List Act} {origin : Custody}

/-- Turns lead on from wherever a campaign has come. -/
theorem Sane.reaches (sane : campaign.Sane)
    (reached : Custody.Reaches Finishes origin acts campaign.custody)
    (taken : campaign.steps engines turns = some now) :
    now.Sane ∧ Custody.Reaches Finishes origin (acts ++ campaign.trace engines turns) now.custody := by
  induction turns generalizing campaign acts with
  | nil =>
    have same : acts ++ campaign.trace engines [] = acts := List.append_nil acts
    cases taken
    rw [same]
    exact ⟨sane, reached⟩
  | cons turn rest hyp =>
    unfold steps at taken
    obtain ⟨next, first, later⟩ := Option.bind_eq_some_iff.mp taken
    have trace : campaign.trace engines (turn :: rest) =
        campaign.acts engines turn ++ next.trace engines rest := by
      rw [Campaign.trace, first]
    rw [trace, ← List.append_assoc]
    exact hyp (sane.step first) (reached.step (sane.step_custody first)) later

/-- An act of some turns was done in one of them. -/
theorem exists_of_mem_trace {act : Act} (member : act ∈ campaign.trace engines turns) :
    ∃ before turn after between next, turns = before ++ turn :: after ∧
      campaign.steps engines before = some between ∧ between.step engines turn = some next ∧
      act ∈ between.acts engines turn := by
  induction turns generalizing campaign with
  | nil => cases member
  | cons turn rest hyp =>
    unfold trace at member
    split at member
    · cases member
    · rename_i next first
      rcases List.mem_append.mp member with now | later
      · exact ⟨[], turn, rest, campaign, next, rfl, rfl, first, now⟩
      · obtain ⟨before, turn', after, between, last, rfl, reached, taken, done⟩ := hyp later
        refine ⟨turn :: before, turn', after, between, last, rfl, ?_, taken, done⟩
        unfold steps
        rw [first]
        exact reached

/-- A campaign whose tasks nobody runs yet. -/
structure Fresh (campaign : Campaign σ) : Prop where
  resting : ∀ scheduler ∈ campaign.schedulers, scheduler.AtRest
  idle : campaign.active = none
  kept : ∀ task ∈ campaign.tasks, task.WellKept

theorem Fresh.sane (fresh : start.Fresh) : start.Sane where
  resting := fresh.resting
  running number run active := by
    rw [fresh.idle] at active
    cases active

theorem Fresh.custody_resting (fresh : start.Fresh) : start.custody.Resting := by
  have same : start.custody = ⟨fun number => (start.tasks[number]?).map Task.deaf, [], 0⟩ := by
    unfold custody
    rw [fresh.idle]
  rw [same]
  refine ⟨rfl, rfl, fun number task found => ?_⟩
  obtain ⟨heard, known, rfl⟩ := Option.map_eq_some_iff.mp found
  exact fresh.kept heard (List.mem_of_getElem? known)

/-- Wherever a fresh campaign has come, its acts are coherent. -/
theorem Fresh.coherent (fresh : start.Fresh) (taken : start.steps engines turns = some now) :
    now.Sane ∧
      Custody.Coherent start.custody (start.trace engines turns) now.custody := by
  obtain ⟨sane, reached⟩ := fresh.sane.reaches .refl taken
  exact ⟨sane, reached.coherent fresh.custody_resting fun _ _ _ _ => id⟩

/-- What holds when an engine is called for an action after some turns. -/
structure Prepared (engines : Nat → Engines σ) (start : Campaign σ) (turns : List Turn)
    (now : Campaign σ) (number : Nat) (action : Action) : Prop where
  /-- The action is there, and it is running. -/
  running : ∃ task, now.current[number]? = some task ∧
    task.actionProgress action = some .running
  /-- It was new when it was handed out. -/
  new : ∃ before turn after between next task, turns = before ++ turn :: after ∧
    start.steps engines before = some between ∧ between.step engines turn = some next ∧
    .dispatched number action ∈ between.acts engines turn ∧
    between.current[number]? = some task ∧ task.actionProgress action = some .new
  /-- Everything of a lower priority has succeeded. -/
  below : ∀ task lower progress, now.current[number]? = some task →
    lower.priority < action.priority → task.actionProgress lower = some progress →
    progress = .succeeded
  /-- The counts of what is below are the ones that were returned last, or else the first ones. -/
  counts : ∀ initial task lower, start.current[number]? = some initial →
    now.current[number]? = some task → lower.priority < action.priority →
    task.has lower = true → task.rowCounts lower task.table.fullName =
      (Act.lastCounts number lower (start.trace engines turns)).or
        (initial.rowCounts lower initial.table.fullName)

/-- **However tasks are run, their actions are conducted in order.** Whenever an engine is called,
the action is prepared; it is called for an action once at most, and never for one that was refused.
Executions of a task never go back to a lower priority, and nothing is handed out of a task that a
pass has found ended. -/
theorem conduct (fresh : start.Fresh) (taken : start.steps engines turns = some now) :
    (∀ turn next number action execution, now.step engines turn = some next →
      .executed number action execution ∈ now.acts engines turn →
      Prepared engines start turns now number action) ∧
    (∀ number action,
      (start.trace engines turns).countP (Act.executes number action) ≤ 1) ∧
    (∀ number action execution, .refused number action ∈ start.trace engines turns →
      .executed number action execution ∉ start.trace engines turns) ∧
    (start.trace engines turns).Pairwise Act.InOrder := by
  obtain ⟨sane, coherent⟩ := fresh.coherent taken
  refine ⟨fun turn next number action execution stepped called => ?_, fun number action => ?_,
    fun number action execution => ?_, coherent.ordered⟩
  · have step := sane.step_custody stepped
    obtain ⟨heard, found, running, cleared, counts⟩ := coherent.admits step _ called
    rw [tasks_custody] at found
    obtain ⟨task, known, rfl⟩ := Option.map_eq_some_iff.mp found
    refine ⟨⟨task, known, running⟩, ?_, fun task' lower progress found' under now' => ?_,
      fun initial task' lower began found' under has => ?_⟩
    · have asked := coherent.dispatched_of_executed step called
      obtain ⟨before, turn', after, between, last, split, reached, stepped', done⟩ :=
        exists_of_mem_trace asked
      obtain ⟨sane', coherent'⟩ := fresh.coherent reached
      obtain ⟨heard, found', new, _⟩ := coherent'.admits (sane'.step_custody stepped') _ done
      rw [tasks_custody] at found'
      obtain ⟨task', known', rfl⟩ := Option.map_eq_some_iff.mp found'
      exact ⟨before, turn', after, between, last, task', split, reached, stepped', done, known', new⟩
    · rw [known] at found'
      cases found'
      exact cleared lower under progress now'
    · rw [known] at found'
      cases found'
      refine counts initial.deaf lower ?_ under has
      rw [tasks_custody, began]
      rfl
  · obtain ⟨_, story, _, _⟩ := coherent.tells number action
    exact story.executed_once
  · obtain ⟨_, story, _, _⟩ := coherent.tells number action
    exact story.not_executed_of_refused

end Campaign

/-- What a worker does with a job that calls for no delivery. -/
def Run.jobMoves (engine : Engine) : List Run.Move :=
  .take engine :: List.replicate 8 (.work engine 0)

namespace Campaign

/-! ### A small campaign -/

/-- Engines whose stores accept everything and whose calls succeed with nothing found out. -/
def easyEngines (_ : Nat) : Engines Unit where
  backend := ⟨fun _ _ _ _ => (.ok ⟨none⟩, ()), fun _ _ _ => (⟨.ok (), []⟩, ())⟩
  call _ _ _ _ _ := (.returned .succeed, ())

/-- An execution that has counted. -/
def counted : Execution :=
  { Execution.succeed with counts := some [("", "5")] }

/-- Engines whose calls all count. -/
def countedEngines (number : Nat) : Engines Unit :=
  { easyEngines number with call := fun _ _ _ _ _ => (.returned counted, ()) }

/-- Two schedulers, with a task of one action and a task of two actions of different priorities. -/
def smallCampaign : Campaign Unit where
  schedulers := List.replicate 2 (.create none true true true fun _ => ⟨1, 1⟩)
  tasks := [[.load], [.createTable, .load]].map
    (Task.create "t" ⟨"d", "t", [], []⟩ ⟨none⟩ none .succeeded).addActions
  state := ()
  active := none

/-- One scheduler runs the first task, and then the other one runs both, with the second task listed
twice. Its first action is executed while its second entry is looked at, which therefore hands out
the second action; a worker has just taken it. -/
def smallTurns : List Turn :=
  .launch 0 [0] :: List.replicate 7 (.move .advance) ++ (Run.jobMoves .destination).map .move ++
    List.replicate 10 (.move .advance) ++ .conclude :: .launch 1 [1, 0, 1] ::
    List.replicate 9 (.move .advance) ++ (Run.jobMoves .destination).map .move ++
    List.replicate 4 (.move .advance) ++ [.move (.take .destination)]

/-- The next turn calls the engine for the second action of a task, and everything is prepared. -/
theorem conduct_small : ∃ now next, smallCampaign.steps countedEngines smallTurns = some now ∧
    now.step countedEngines (.move (.work .destination 0)) = some next ∧
    now.acts countedEngines (.move (.work .destination 0)) = [.executed 1 .load counted] ∧
    Prepared countedEngines smallCampaign smallTurns now 1 .load ∧
    smallCampaign.trace countedEngines smallTurns =
      [.dispatched 0 .load, .executed 0 .load counted, .foundEnded 0, .dispatched 1 .createTable,
        .foundEnded 0, .executed 1 .createTable counted, .dispatched 1 .load] := by
  have goes : ((smallCampaign.steps countedEngines smallTurns).any fun now =>
      (now.step countedEngines (.move (.work .destination 0))).isSome &&
        decide (now.acts countedEngines (.move (.work .destination 0)) =
          [.executed 1 .load counted])) = true := by decide +kernel
  obtain ⟨now, taken, goes⟩ := (Option.any_eq_true _ _).mp goes
  obtain ⟨goes, called⟩ := Bool.and_eq_true_iff.mp goes
  obtain ⟨next, stepped⟩ := Option.isSome_iff_exists.mp goes
  have called := of_decide_eq_true called
  have fresh : smallCampaign.Fresh := by
    refine ⟨fun scheduler member => ?_, rfl, List.forall_mem_map.mpr fun actions _ => ?_⟩
    · rw [List.eq_of_mem_replicate member]
      exact Scheduler.atRest_create none true true true _
    · exact Task.wellKept_addActions (Task.wellKept_create _ _ _ _ _) actions
  have member : .executed 1 .load counted ∈
      now.acts countedEngines (.move (.work .destination 0)) := by
    rw [called]
    exact List.mem_singleton_self _
  exact ⟨now, next, taken, stepped, called,
    (conduct fresh taken).1 _ next 1 .load counted stepped member, by decide +kernel⟩

end Campaign

end TableMigration
