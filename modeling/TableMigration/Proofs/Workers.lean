/-
**The pools of a run.**

* `Pool.Step` is what one move can do to a pool, and `Run.step_frame` says that no move does
  anything else.
* `Scheduler.AtRest.begins` — a scheduler whose pools have no jobs begins a run with open pools that
  have workers and places. It does if the pools are large enough (`Scheduler.Able.starts`).
* `Run.Joining` — once no pass is to come, every pool is closed or yet to be waited for. So a run
  that is over has left no job behind (`Run.Joining.empty`).
-/

import TableMigration.Proofs.Agenda
import TableMigration.Proofs.Moves

namespace TableMigration

/-! ### Steps of a pool -/

/-- What one move can do to a pool. -/
inductive Pool.Step {α : Type} (pool : Pool α) : Pool α → Prop
  | same : Step pool pool
  | submit (priority : Nat) (job : α) : Step pool (pool.submit priority job).pool
  | take {ticket after} (taken : pool.take? = some (ticket, after)) : Step pool after
  | amend (place : Nat) (job : α) : Step pool (pool.amend place job)
  | finish (place : Nat) (ending : JobEnd) : Step pool (pool.finish place ending)
  | close : Step pool pool.close
  | join {after} (joined : pool.join? = some after) : Step pool after

namespace Pool

variable {α : Type} {pool after : Pool α}

/-- Whether a pool has no jobs. -/
def Empty (pool : Pool α) : Prop :=
  pool.queue = [] ∧ pool.running = []

/-- Whether a pool could run jobs, and has none when it is closed. -/
structure Fit (pool : Pool α) : Prop where
  workers : 0 < pool.size.workers
  places : 0 < pool.size.places
  begun : pool.phase ≠ .idle
  closed : pool.phase = .closed → pool.Empty

theorem hasWorkers_of_phase (phase : pool.phase = .open ∨ pool.phase = .closing) :
    pool.hasWorkers = true := by
  unfold hasWorkers
  rcases phase with phase | phase <;> rw [phase] <;> rfl

theorem join_eq (joined : pool.join? = some after) :
    pool.phase = .closing ∧ pool.Empty ∧ after = { pool with phase := .closed } := by
  unfold join? at joined
  split at joined
  · rename_i ready
    cases joined
    obtain ⟨closing, drained⟩ := ready
    simp only [isDrained, Bool.and_eq_true, List.isEmpty_iff] at drained
    exact ⟨closing, drained, rfl⟩
  · cases joined

/-- A pool that is closed stays as it is, but for what it has counted. -/
theorem Step.closed (step : pool.Step after) (closed : pool.phase = .closed)
    (empty : pool.Empty) : after.phase = .closed ∧ after.Empty ∧ after.size = pool.size := by
  cases step with
  | same => exact ⟨closed, empty, rfl⟩
  | submit priority job =>
    have refused : pool.refusal? = some .closing := by
      unfold refusal?
      rw [closed]
    unfold Pool.submit
    rw [refused]
    exact ⟨closed, empty, rfl⟩
  | take taken =>
    obtain ⟨_, rest, queue, _⟩ := take_eq taken
    rw [empty.1] at queue
    cases queue
  | amend place job =>
    refine ⟨closed, ⟨empty.1, ?_⟩, rfl⟩
    show pool.running.modify place _ = []
    rw [empty.2]
    exact List.modify_nil ..
  | finish place ending =>
    have same : pool.finish place ending = pool :=
      if_neg (by rw [empty.2]; exact Nat.not_lt_zero place)
    rw [same]
    exact ⟨closed, empty, rfl⟩
  | close =>
    unfold Pool.close
    rw [closed, if_neg nofun]
    exact ⟨closed, empty, rfl⟩
  | join joined =>
    rw [(join_eq joined).1] at closed
    cases closed

theorem phase_submit (priority : Nat) (job : α) :
    (pool.submit priority job).pool.phase = pool.phase ∧
      (pool.submit priority job).pool.size = pool.size := by
  unfold Pool.submit
  split <;> exact ⟨rfl, rfl⟩

theorem phase_take {ticket : Ticket α} (taken : pool.take? = some (ticket, after)) :
    after.phase = pool.phase ∧ after.size = pool.size := by
  obtain ⟨_, rest, _, rfl⟩ := take_eq taken
  exact ⟨rfl, rfl⟩

/-- A pool keeps its size, and its phase unless it is closed or waited for. -/
theorem Step.phase (step : pool.Step after) : after.size = pool.size ∧
    (after.phase = pool.phase ∨ pool.phase = .open ∧ after.phase = .closing ∨
      pool.phase = .closing ∧ after.phase = .closed ∧ after.Empty) := by
  cases step with
  | same => exact ⟨rfl, .inl rfl⟩
  | submit priority job =>
    exact ⟨(phase_submit priority job).2, .inl (phase_submit priority job).1⟩
  | take taken => exact ⟨(phase_take taken).2, .inl (phase_take taken).1⟩
  | amend place job => exact ⟨rfl, .inl rfl⟩
  | finish place ending =>
    unfold Pool.finish
    split <;> exact ⟨rfl, .inl rfl⟩
  | close =>
    unfold Pool.close
    split
    · rename_i opened
      exact ⟨rfl, .inr (.inl ⟨opened, rfl⟩)⟩
    · exact ⟨rfl, .inl rfl⟩
  | join joined =>
    obtain ⟨closing, empty, rfl⟩ := join_eq joined
    exact ⟨rfl, .inr (.inr ⟨closing, rfl, empty⟩)⟩

/-- A pool stays fit. -/
theorem Step.fit (step : pool.Step after) (fit : pool.Fit) : after.Fit := by
  obtain ⟨size, phase⟩ := step.phase
  refine ⟨size ▸ fit.workers, size ▸ fit.places, fun idle => ?_, fun closed => ?_⟩
  · rcases phase with same | ⟨_, closing⟩ | ⟨_, closed, _⟩
    · exact fit.begun (same ▸ idle)
    · rw [closing] at idle
      cases idle
    · rw [closed] at idle
      cases idle
  · rcases phase with same | ⟨_, closing⟩ | ⟨_, _, empty⟩
    · have closed' := same ▸ closed
      exact (step.closed closed' (fit.closed closed')).2.1
    · rw [closing] at closed
      cases closed
    · exact empty

end Pool

/-! ### Moves and pools -/

theorem Pools.get_set (pools : Pools) (engine other : Engine) (pool : Pool Job) :
    (pools.set engine pool).get other = if other = engine then pool else pools.get other := by
  cases engine <;> cases other <;> rfl

namespace Run

variable {σ : Type} {engines : Engines σ} {run after next : Run σ}

/-- What every move leaves alone, and what it can do to the pools. -/
structure Frame (run next : Run σ) : Prop where
  pools : ∀ engine, (run.scheduler.pools.get engine).Step (next.scheduler.pools.get engine)
  listed : next.listed = run.listed
  store : next.scheduler.store = run.scheduler.store
  verifies : next.scheduler.verifiesItself = run.scheduler.verifiesItself

theorem Aside.frame (aside : Aside run after) : Frame run after where
  pools _ := aside.pools ▸ .same
  listed := aside.listed
  store := aside.store
  verifies := aside.verifies

/-- Replacing one pool by its step is a step of every pool. -/
theorem frame_setPool {engine : Engine} {pool : Pool Job}
    (step : (run.scheduler.pools.get engine).Step pool) : Frame run (run.setPool engine pool) where
  pools other := by
    show Pool.Step _ ((run.scheduler.pools.set engine pool).get other)
    rw [Pools.get_set]
    by_cases equal : other = engine
    · rw [if_pos equal, equal]
      exact step
    · rw [if_neg equal]
      exact .same
  listed := rfl
  store := rfl
  verifies := rfl

theorem frame_refl (run : Run σ) : Frame run run :=
  (Aside.refl run).frame

/-- The scheduler and the listed tasks are all that matters. -/
theorem Frame.still (frame : Frame run after) (same : next.scheduler = after.scheduler)
    (listed : next.listed = after.listed) : Frame run next :=
  ⟨fun engine => same ▸ frame.pools engine, listed.trans frame.listed, same ▸ frame.store,
    same ▸ frame.verifies⟩

theorem Frame.of_eq (frame : Frame after next) (same : run.scheduler = after.scheduler)
    (listed : run.listed = after.listed) : Frame run next :=
  ⟨fun engine => same ▸ frame.pools engine, frame.listed.trans listed.symm,
    frame.store.trans (same ▸ rfl), frame.verifies.trans (same ▸ rfl)⟩

theorem frame_reportProgress (run : Run σ) (number : Nat) (action : Action) (progress : Progress) :
    Frame run (run.reportProgress number action progress).1 := by
  unfold reportProgress
  split
  · exact frame_refl run
  · exact ⟨fun _ => .same, rfl, rfl, rfl⟩

/-- Only a pool is touched after the rest has been left alone. -/
theorem Frame.setPool {engine : Engine} {pool : Pool Job} (frame : Frame run after)
    (same : after.scheduler.pools = run.scheduler.pools)
    (step : (run.scheduler.pools.get engine).Step pool) : Frame run (after.setPool engine pool) where
  pools := by
    have step' : (after.scheduler.pools.get engine).Step pool := same ▸ step
    exact same ▸ (frame_setPool step').pools
  listed := frame.listed
  store := frame.store
  verifies := frame.verifies

theorem frame_perform {duty : Duty} (performed : run.perform engines duty = some next) :
    Frame run next := by
  have still : ∀ {after : Run σ}, after.scheduler = run.scheduler → after.listed = run.listed →
      Frame run after := (frame_refl run).still
  cases duty with
  | look number =>
    cases performed
    split <;> exact still rfl rfl
  | collect number =>
    cases performed
    split <;> exact still rfl rfl
  | dispatch number action =>
    cases performed
    split
    · exact still rfl rfl
    · rename_i task _
      have frame : Frame run ((run.tell [.dispatched task.name action]).reportProgress number
          action .running).1 := (frame_reportProgress _ number action .running).of_eq rfl rfl
      exact frame.still rfl rfl
  | submit number action =>
    cases performed
    dsimp only
    split
    · exact still rfl rfl
    · have frame : Frame run (run.setPool action.engine
          ((run.scheduler.pools.get action.engine).submit action.priority
            ⟨number, action, .call⟩).pool) := frame_setPool (.submit _ _)
      split <;> exact frame.still rfl rfl
  | refuse number action =>
    cases performed
    exact (frame_reportProgress run number action .failed).still rfl rfl
  | deliver number delivery =>
    cases performed
    exact (aside_deliver engines run number delivery).frame
  | announce number progress =>
    cases performed
    exact (aside_announce run number (some progress)).frame
  | judge key =>
    cases performed
    split
    · exact still rfl rfl
    · split
      · rename_i group _ _
        obtain ⟨pools, listed, store, verifies⟩ := (aside_finishTable engines run key group).frame
        exact ⟨pools, listed, store, verifies⟩
      · exact still rfl rfl
  | test =>
    cases performed
    split
    · exact still rfl rfl
    · split <;> exact still rfl rfl
  | giveUp key =>
    cases performed
    split
    · exact still rfl rfl
    · exact (aside_giveUp engines run key _).frame
  | close other =>
    cases performed
    exact frame_setPool .close
  | join other =>
    simp only [perform, Option.map_eq_some_iff] at performed
    obtain ⟨stopped, joined, rfl⟩ := performed
    exact (frame_setPool (.join joined)).still rfl rfl
  | beginPass | countIn | countOut | wait | unlisten | conclude =>
    cases performed
    exact ⟨fun _ => .same, rfl, rfl, rfl⟩

theorem Does.frame {number : Nat} {task : Task} {action : Action} {stage later : Stage}
    (does : Does engines run number task action stage after later) : Frame run after := by
  cases does with
  | call => exact (aside_callEngine engines run number task action).frame
  | deliver execution changed delivery rest => exact (aside_deliver engines run number delivery).frame
  | announce execution changed => exact (aside_announce run number changed).frame
  | delivered => exact frame_refl run
  | _ => exact ⟨fun _ => .same, rfl, rfl, rfl⟩

/-- **No move does anything to a pool but one of its steps, or changes what the run is about.** -/
theorem step_frame {move : Move} (moved : run.step engines move = some next) : Frame run next := by
  cases move with
  | advance =>
    simp only [step, advance] at moved
    split at moved
    · cases moved
    · exact (frame_perform moved).of_eq rfl rfl
  | take engine =>
    simp only [step, takeJob, Option.map_eq_some_iff] at moved
    obtain ⟨⟨ticket, pool⟩, taken, rfl⟩ := moved
    exact frame_setPool (.take taken)
  | work engine place =>
    obtain ⟨ticket, task, job, found, goes⟩ := work_cases moved
    rcases goes with ⟨after, later, does, rfl⟩ | ⟨execution, ending, notices, _, rfl⟩
    · exact does.frame.setPool does.pools (does.pools ▸ .amend place _)
    · exact (frame_setPool (.finish place ending)).still rfl rfl

/-! ### The end of a run -/

/-- Whether a pass is yet to come or to be tested. -/
def Looping (run : Run σ) : Prop :=
  ∃ duty ∈ run.agenda, duty.rank = 3

/-- Whether all pools are fit, and those that are not closed will be waited for. -/
structure Joining (run : Run σ) : Prop where
  fit : ∀ engine, (run.scheduler.pools.get engine).Fit
  joined : ∀ engine, run.Looping ∨ .join engine ∈ run.agenda ∨
    (run.scheduler.pools.get engine).phase = .closed

theorem Does.agenda {number : Nat} {task : Task} {action : Action} {stage later : Stage}
    (does : Does engines run number task action stage after later) : after.agenda = run.agenda := by
  cases does with
  | call => exact congrArg Ledger.agenda (aside_callEngine engines run number task action).ledger
  | deliver execution changed delivery rest =>
    exact congrArg Ledger.agenda (aside_deliver engines run number delivery).ledger
  | announce execution changed =>
    exact congrArg Ledger.agenda (aside_announce run number changed).ledger
  | _ => rfl

/-- Only the scheduling thread touches the agenda. -/
theorem agenda_step {move : Move} (moved : run.step engines move = some next)
    (other : move ≠ .advance) : next.agenda = run.agenda := by
  cases move with
  | advance => exact absurd rfl other
  | take engine =>
    simp only [step, takeJob, Option.map_eq_some_iff] at moved
    obtain ⟨_, _, rfl⟩ := moved
    rfl
  | work engine place =>
    obtain ⟨ticket, task, job, found, goes⟩ := work_cases moved
    rcases goes with ⟨after, later, does, rfl⟩ | ⟨_, _, _, _, rfl⟩
    · exact does.agenda
    · rfl

/-- Whoever waits for a pool finds it closed in the end. -/
theorem closed_of_join {engine : Engine} {rest : List Duty}
    (head : run.agenda = .join engine :: rest) (moved : run.advance engines = some next) :
    (next.scheduler.pools.get engine).phase = .closed := by
  unfold advance at moved
  rw [head] at moved
  simp only [perform, Option.map_eq_some_iff] at moved
  obtain ⟨stopped, joined, rfl⟩ := moved
  obtain ⟨_, _, rfl⟩ := Pool.join_eq joined
  show ((run.scheduler.pools.set engine _).get engine).phase = _
  rw [Pools.get_set, if_pos rfl]

/-- The pools go on towards their end. -/
theorem Joining.step {move : Move} (joining : run.Joining)
    (moved : run.step engines move = some next) : next.Joining where
  fit engine := ((step_frame moved).pools engine).fit (joining.fit engine)
  joined engine := by
    have stays : (run.scheduler.pools.get engine).phase = .closed →
        (next.scheduler.pools.get engine).phase = .closed := fun closed =>
      (((step_frame moved).pools engine).closed closed ((joining.fit engine).closed closed)).1
    by_cases advances : move = .advance
    · subst advances
      obtain ⟨duty, rest, agenda, -⟩ := exists_of_advance moved
      have step : run.ledger.Step (fun _ _ _ _ => True) _ next.ledger := advance_ledger moved
      obtain ⟨duties, after, _, _, decides⟩ := step.agenda agenda
      have after : next.agenda = duties ++ rest := after
      rcases joining.joined engine with ⟨other, planned, three⟩ | planned | closed
      · rw [agenda] at planned
        rcases List.mem_cons.mp planned with rfl | behind
        · rcases decides three with ⟨again, new, three⟩ | ⟨_, joins⟩
          · exact .inl ⟨again, after ▸ List.mem_append_left _ new, three⟩
          · exact .inr (.inl (after ▸ List.mem_append_left _ (joins engine)))
        · exact .inl ⟨other, after ▸ List.mem_append_right _ behind, three⟩
      · rw [agenda] at planned
        rcases List.mem_cons.mp planned with rfl | behind
        · exact .inr (.inr (closed_of_join agenda moved))
        · exact .inr (.inl (after ▸ List.mem_append_right _ behind))
      · exact .inr (.inr (stays closed))
    · have same := agenda_step moved advances
      unfold Looping
      rw [same]
      exact (joining.joined engine).imp id (Or.imp id stays)

theorem jobs_of_empty {pools : Pools} (empty : ∀ engine, (pools.get engine).Empty) :
    pools.jobs = 0 := by
  have idle : ∀ engine, (pools.get engine).jobs = 0 := by
    intro engine
    unfold Pool.jobs
    rw [(empty engine).1, (empty engine).2]
    rfl
  show pools.source.jobs + pools.destination.jobs + pools.validation.jobs = 0
  rw [show pools.source.jobs = 0 from idle .source,
    show pools.destination.jobs = 0 from idle .destination,
    show pools.validation.jobs = 0 from idle .validation]
  rfl

/-- What every move keeps, some moves keep, one after the other. -/
theorem steps_induction {P : Run σ → Prop}
    (keeps : ∀ {run next : Run σ} {move}, P run → run.step engines move = some next → P next)
    {moves : List Move} (start : P run) (reached : run.steps engines moves = some next) :
    P next := by
  induction moves generalizing run with
  | nil =>
    cases reached
    exact start
  | cons move rest hyp =>
    obtain ⟨after, moved, reached⟩ := Option.bind_eq_some_iff.mp reached
    exact hyp (keeps start moved) reached

theorem Joining.steps {moves : List Move} (joining : run.Joining)
    (reached : run.steps engines moves = some next) : next.Joining :=
  steps_induction Joining.step joining reached

/-- **A run that is over has left no job behind.** -/
theorem Joining.empty (joining : run.Joining) (past : run.isOver = true) (engine : Engine) :
    (run.scheduler.pools.get engine).phase = .closed ∧
      (run.scheduler.pools.get engine).Empty := by
  have agenda : run.agenda = [] := List.isEmpty_iff.mp past
  rcases joining.joined engine with ⟨_, planned, _⟩ | planned | closed
  · rw [agenda] at planned
    cases planned
  · rw [agenda] at planned
    cases planned
  · exact ⟨closed, (joining.fit engine).closed closed⟩

end Run

/-! ### The beginning of a run -/

namespace Scheduler

/-- Whether no pool of a scheduler is in use. -/
def AtRest (scheduler : Scheduler) : Prop :=
  ∀ engine, (scheduler.pools.get engine).Empty ∧
    ((scheduler.pools.get engine).phase = .idle ∨ (scheduler.pools.get engine).phase = .closed)

theorem atRest_create (store : Option StoreRef) (hasSource hasDestination verifiesItself : Bool)
    (sizes : Engine → PoolSize) :
    (create store hasSource hasDestination verifiesItself sizes).AtRest := by
  intro engine
  cases engine <;> exact ⟨⟨rfl, rfl⟩, .inl rfl⟩

/-- What a start changes about a scheduler. -/
structure Starts (engines : List Engine) (scheduler ready : Scheduler) : Prop where
  store : ready.store = scheduler.store
  verifies : ready.verifiesItself = scheduler.verifiesItself
  others : ∀ engine, engine ∉ engines → ready.pools.get engine = scheduler.pools.get engine
  started : ∀ engine ∈ engines, (scheduler.pools.get engine).isRunning = false →
    ready.pools.get engine = { scheduler.pools.get engine with phase := .open } ∧
      0 < (scheduler.pools.get engine).size.workers ∧ 0 < (scheduler.pools.get engine).size.places

theorem start_eq {pool started : Pool Job} (start : pool.start = .ok started) :
    started = { pool with phase := .open } ∧ 0 < pool.size.workers ∧ 0 < pool.size.places := by
  unfold Pool.start at start
  split at start
  · cases start
  · split at start
    · cases start
    · split at start
      · cases start
      · rename_i workers places
        cases start
        exact ⟨rfl, Nat.pos_of_ne_zero workers, Nat.pos_of_ne_zero places⟩

theorem startPools_starts {engines : List Engine} {scheduler ready : Scheduler}
    {notices : List Notice} (distinct : engines.Nodup)
    (started : scheduler.startPools engines = (ready, notices, none)) :
    Starts engines scheduler ready := by
  induction engines generalizing scheduler notices with
  | nil =>
    cases started
    exact ⟨rfl, rfl, fun _ _ => rfl, fun _ member => nomatch member⟩
  | cons engine rest hyp =>
    obtain ⟨fresh, distinct⟩ := List.nodup_cons.mp distinct
    unfold startPools at started
    dsimp only at started
    split at started
    · rename_i running
      obtain ⟨store, verifies, others, starts⟩ := hyp distinct started
      refine ⟨store, verifies, fun other unlisted => ?_, fun other listed idle => ?_⟩
      · exact others other fun listed => unlisted (List.mem_cons_of_mem _ listed)
      · rcases List.mem_cons.mp listed with rfl | listed
        · rw [running] at idle
          cases idle
        · exact starts other listed idle
    · split at started
      · cases started
      · rename_i pool start
        obtain ⟨rfl, workers, places⟩ := start_eq start
        generalize recursion :
          (scheduler.setPool engine { scheduler.pools.get engine with phase := .open }).startPools
            rest = result at started
        obtain ⟨last, later, error⟩ := result
        cases started
        obtain ⟨store, verifies, others, starts⟩ := hyp distinct recursion
        have found : ∀ other, (scheduler.setPool engine
            { scheduler.pools.get engine with phase := .open }).pools.get other =
            if other = engine then { scheduler.pools.get engine with phase := .open }
            else scheduler.pools.get other := fun other => Pools.get_set _ _ _ _
        refine ⟨store, verifies, fun other unlisted => ?_, fun other listed idle => ?_⟩
        · rw [List.mem_cons, not_or] at unlisted
          rw [others other unlisted.2, found, if_neg unlisted.1]
        · rcases List.mem_cons.mp listed with rfl | listed
          · rw [others other fresh, found, if_pos rfl]
            exact ⟨rfl, workers, places⟩
          · have apart : other ≠ engine := fun same => fresh (same ▸ listed)
            have starts := starts other listed
            rw [found, if_neg apart] at starts
            exact starts idle

/-- How a run of a scheduler at rest begins. -/
structure Begins {σ : Type} (scheduler : Scheduler) (tasks : List Task) (listed : List Nat)
    (state : σ) (run : Run σ) : Prop where
  heard : run.tasks = listed.foldl Task.listenTo tasks
  asked : run.listed = listed
  grouped : run.tables = Grouping.ofTasks tasks listed
  agenda : run.agenda = if (Grouping.ofTasks tasks listed).isEmpty then Duty.closing
    else [.beginPass]
  counters : run.scheduler.inFlight = 0 ∧ run.scheduler.completions = 0 ∧ run.seen = 0 ∧
    run.dispatched = 0
  world : run.state = state
  store : run.scheduler.store = scheduler.store
  verifies : run.scheduler.verifiesItself = scheduler.verifiesItself
  failedTables : run.scheduler.failedTables = []
  report : run.report = .empty
  pools : ∀ engine, (run.scheduler.pools.get engine).phase = .open ∧
    (run.scheduler.pools.get engine).Empty ∧ (run.scheduler.pools.get engine).Fit

/-- **A run begins with open pools that have no jobs.** -/
theorem AtRest.begins {σ : Type} {scheduler : Scheduler} {tasks : List Task} {listed : List Nat}
    {state : σ} {run : Run σ} (resting : scheduler.AtRest)
    (launched : scheduler.launch tasks listed state = .started run) :
    Begins scheduler tasks listed state run := by
  unfold launch at launched
  split at launched
  · cases launched
  · split at launched
    · cases launched
    · rename_i ready notices started
      cases launched
      have starts := startPools_starts (by decide) started
      have pools : ∀ engine, (ready.pools.get engine).phase = .open ∧
          (ready.pools.get engine).Empty ∧ (ready.pools.get engine).Fit := by
        intro engine
        obtain ⟨empty, phase⟩ := resting engine
        have idle : (scheduler.pools.get engine).isRunning = false := by
          unfold Pool.isRunning
          rcases phase with phase | phase <;> rw [phase] <;> rfl
        have all : engine ∈ Engine.all := by cases engine <;> decide
        obtain ⟨same, workers, places⟩ := starts.started engine all idle
        rw [same]
        exact ⟨rfl, empty, workers, places, nofun, nofun⟩
      exact {
        heard := rfl
        asked := rfl
        grouped := rfl
        agenda := rfl
        counters := ⟨rfl, rfl, rfl, rfl⟩
        world := rfl
        store := starts.store
        verifies := starts.verifies
        failedTables := rfl
        report := rfl
        pools := pools }

/-- Pools that are not at work start, if they are large enough. -/
theorem startPools_succeeds {scheduler : Scheduler}
    (ready : ∀ engine, (scheduler.pools.get engine).phase ≠ .closing ∧
      0 < (scheduler.pools.get engine).size.workers ∧ 0 < (scheduler.pools.get engine).size.places)
    (engines : List Engine) : (scheduler.startPools engines).2.2 = none := by
  induction engines generalizing scheduler with
  | nil => rfl
  | cons engine rest hyp =>
    obtain ⟨phase, workers, places⟩ := ready engine
    unfold startPools
    dsimp only
    by_cases running : (scheduler.pools.get engine).isRunning = true
    · rw [if_pos running]
      exact hyp ready
    · rw [if_neg running]
      have idle : ¬ (scheduler.pools.get engine).hasWorkers = true := by
        unfold Pool.hasWorkers
        unfold Pool.isRunning at running
        simp only [Bool.or_eq_true, beq_iff_eq] at running ⊢
        exact not_or.mpr ⟨running, phase⟩
      have start : (scheduler.pools.get engine).start =
          .ok { scheduler.pools.get engine with phase := .open } := by
        unfold Pool.start
        rw [if_neg idle, if_neg (Nat.ne_of_gt workers), if_neg (Nat.ne_of_gt places)]
      rw [start]
      dsimp only
      refine hyp fun other => ?_
      unfold setPool
      dsimp only
      rw [Pools.get_set]
      split
      · exact ⟨nofun, workers, places⟩
      · exact ready other

/-- Whether a scheduler can begin a run: it is at rest and has its engines, and its pools are large
enough. -/
structure Able (scheduler : Scheduler) : Prop where
  resting : scheduler.AtRest
  source : scheduler.hasSource = true
  destination : scheduler.hasDestination = true
  sizes : ∀ engine, 0 < (scheduler.pools.get engine).size.workers ∧
    0 < (scheduler.pools.get engine).size.places

theorem able_create (store : Option StoreRef) (verifiesItself : Bool) {sizes : Engine → PoolSize}
    (large : ∀ engine, 0 < (sizes engine).workers ∧ 0 < (sizes engine).places) :
    (create store true true verifiesItself sizes).Able where
  resting := atRest_create _ _ _ _ _
  source := rfl
  destination := rfl
  sizes engine := by
    cases engine <;> exact large _

/-- **Such a scheduler starts.** -/
theorem Able.starts {σ : Type} {scheduler : Scheduler} (able : scheduler.Able) (tasks : List Task)
    (listed : List Nat) (state : σ) : ∃ run, scheduler.launch tasks listed state = .started run := by
  obtain ⟨resting, source, destination, sizes⟩ := able
  have ready : ∀ engine, (scheduler.pools.get engine).phase ≠ .closing ∧
      0 < (scheduler.pools.get engine).size.workers ∧
      0 < (scheduler.pools.get engine).size.places := by
    intro engine
    refine ⟨?_, sizes engine⟩
    rcases (resting engine).2 with phase | phase <;> rw [phase] <;> nofun
  have succeeds := startPools_succeeds ready Engine.all
  unfold launch
  rw [source, destination, if_neg (by decide)]
  split
  · rename_i error started
    rw [started] at succeeds
    cases succeeds
  · exact ⟨_, rfl⟩

namespace Begins

variable {σ : Type} {scheduler : Scheduler} {tasks : List Task} {listed : List Nat} {state : σ}
  {run : Run σ}

theorem joining (begins : Begins scheduler tasks listed state run) : run.Joining where
  fit engine := (begins.pools engine).2.2
  joined engine := by
    unfold Run.Looping
    rw [begins.agenda]
    split
    · refine .inr (.inl ?_)
      cases engine <;> decide
    · exact .inl ⟨.beginPass, List.mem_singleton.mpr rfl, rfl⟩

theorem orderly (begins : Begins scheduler tasks listed state run) :
    Duty.Orderly run.agenda := by
  rw [begins.agenda]
  split
  · exact Duty.orderly_closing
  · exact List.pairwise_singleton _ _

theorem jobs (begins : Begins scheduler tasks listed state run) : run.scheduler.pools.jobs = 0 :=
  Run.jobs_of_empty fun engine => (begins.pools engine).2.1

end Begins

/-! ### A run that does not begin -/

theorem empty_setPool {scheduler : Scheduler} {engine : Engine} {pool : Pool Job}
    (empty : ∀ other, (scheduler.pools.get other).Empty) (mine : pool.Empty) (other : Engine) :
    ((scheduler.setPool engine pool).pools.get other).Empty := by
  show ((scheduler.pools.set engine pool).get other).Empty
  rw [Pools.get_set]
  split
  · exact mine
  · exact empty other

/-- Starting pools brings them no jobs. -/
theorem empty_startPools {engines : List Engine} {scheduler : Scheduler}
    (empty : ∀ engine, (scheduler.pools.get engine).Empty) (engine : Engine) :
    ((scheduler.startPools engines).1.pools.get engine).Empty := by
  induction engines generalizing scheduler with
  | nil => exact empty engine
  | cons first rest hyp =>
    unfold startPools
    dsimp only
    split
    · exact hyp empty
    · split
      · exact empty engine
      · rename_i pool start
        obtain ⟨rfl, _, _⟩ := start_eq start
        exact hyp (empty_setPool empty (empty first))

/-- A pool without jobs can always be stopped, if it was started at all. -/
theorem stop_cases {pool : Pool Job} (empty : pool.Empty) :
    pool.close.join? = none ∧ (pool.phase = .idle ∨ pool.phase = .closed) ∨
      ∃ stopped, pool.close.join? = some stopped ∧ stopped.phase = .closed ∧ stopped.Empty := by
  have drained : pool.close.isDrained = true := by
    unfold Pool.close Pool.isDrained
    split <;> simp [empty.1, empty.2]
  unfold Pool.join?
  rw [drained]
  unfold Pool.close
  cases phase : pool.phase with
  | idle => exact .inl ⟨by simp [phase], .inl rfl⟩
  | closed => exact .inl ⟨by simp [phase], .inr rfl⟩
  | «open» => exact .inr ⟨{ pool with phase := .closed }, by simp, rfl, empty⟩
  | closing => exact .inr ⟨{ pool with phase := .closed }, by simp [phase], rfl, empty⟩

/-- Pools without jobs are at rest once they were stopped. -/
theorem rest_stopPools {engines : List Engine} {scheduler : Scheduler}
    (empty : ∀ engine, (scheduler.pools.get engine).Empty) (engine : Engine) :
    ((scheduler.stopPools engines).1.pools.get engine).Empty ∧
      (engine ∈ engines ∨ (scheduler.pools.get engine).phase = .idle ∨
          (scheduler.pools.get engine).phase = .closed →
        ((scheduler.stopPools engines).1.pools.get engine).phase = .idle ∨
          ((scheduler.stopPools engines).1.pools.get engine).phase = .closed) := by
  induction engines generalizing scheduler with
  | nil => exact ⟨empty engine, fun phase => phase.resolve_left nofun⟩
  | cons first rest hyp =>
    unfold stopPools
    rcases stop_cases (empty first) with ⟨idle, phase⟩ | ⟨stopped, stops, closed, mine⟩
    · rw [idle]
      refine ⟨(hyp empty).1, fun which => (hyp empty).2 ?_⟩
      rcases which with listed | phase'
      · rcases List.mem_cons.mp listed with rfl | listed
        · exact .inr phase
        · exact .inl listed
      · exact .inr phase'
    · rw [stops]
      have empty' : ∀ other, ((scheduler.setPool first stopped).pools.get other).Empty :=
        empty_setPool empty mine
      obtain ⟨last, phase⟩ := hyp empty'
      refine ⟨last, fun which => phase ?_⟩
      show _ ∨ ((scheduler.pools.set first stopped).get engine).phase = .idle ∨
        ((scheduler.pools.set first stopped).get engine).phase = .closed
      rw [Pools.get_set]
      by_cases same : engine = first
      · rw [if_pos same]
        exact .inr (.inr closed)
      · rw [if_neg same]
        rcases which with listed | phase'
        · exact .inl ((List.mem_cons.mp listed).resolve_left same)
        · exact .inr phase'

/-- A scheduler that refuses a run is at rest again. -/
theorem AtRest.refused {σ : Type} {scheduler stopped : Scheduler} {tasks : List Task}
    {listed : List Nat} {state : σ} {error : SchedulerError} {notices : List Notice}
    (resting : scheduler.AtRest)
    (launched : scheduler.launch tasks listed state = .refused error stopped notices) :
    stopped.AtRest := by
  unfold launch at launched
  split at launched
  · cases launched
    exact resting
  · split at launched
    · rename_i halfway started error' same
      cases launched
      intro engine
      have empty : ∀ other, ((scheduler.startPools Engine.all).1.pools.get other).Empty :=
        empty_startPools fun engine => (resting engine).1
      rw [same] at empty
      have all : engine ∈ Engine.all := by cases engine <;> decide
      have last : ((halfway.stopPools Engine.all).1.pools.get engine).Empty ∧ _ :=
        rest_stopPools empty engine
      exact ⟨last.1, last.2 (.inl all)⟩
    · cases launched

end Scheduler

end TableMigration
