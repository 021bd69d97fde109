/-
**A scheduler carries nothing from one run to the next.**

* `Scheduler.startPools_keeps`, `Scheduler.stopPools_keeps` — to start or to stop pools is to change
  their phases, one after the other.
* `Scheduler.Called` — one call of a scheduler: it refuses to run, or it runs to the end.
* `Scheduler.Became` — what such calls leave alone: what the scheduler was made with, and names and
  sizes of its pools (`Scheduler.became_of_calls`).
* `Scheduler.Reused` — a scheduler is the same as another one, but that its pools were used before.
  The two refuse a run for the same reason, or both begin it (`Scheduler.Reused.launch`).
* `Scheduler.carries_nothing` — so whatever a scheduler was called for before, its next run is that
  of a new one.
-/

import TableMigration.Proofs.Independence
import TableMigration.Proofs.Recast

namespace TableMigration

/-! ### What calls leave alone -/

/-- A pool keeps its name and its size, and gives out its numbers in order. -/
theorem Pool.Step.grows {α : Type} {pool after : Pool α} (step : pool.Step after) :
    after.name = pool.name ∧ after.size = pool.size ∧ pool.next ≤ after.next := by
  cases step with
  | same => exact ⟨rfl, rfl, Nat.le_refl _⟩
  | submit priority job =>
    unfold Pool.submit
    split
    · exact ⟨rfl, rfl, Nat.le_refl _⟩
    · exact ⟨rfl, rfl, Nat.le_refl _⟩
    · exact ⟨rfl, rfl, Nat.le_succ _⟩
  | take taken =>
    obtain ⟨_, rest, _, rfl⟩ := Pool.take_eq taken
    exact ⟨rfl, rfl, Nat.le_refl _⟩
  | amend place job => exact ⟨rfl, rfl, Nat.le_refl _⟩
  | finish place ending =>
    unfold Pool.finish
    split <;> exact ⟨rfl, rfl, Nat.le_refl _⟩
  | close =>
    unfold Pool.close
    split <;> exact ⟨rfl, rfl, Nat.le_refl _⟩
  | join joined =>
    obtain ⟨_, _, rfl⟩ := Pool.join_eq joined
    exact ⟨rfl, rfl, Nat.le_refl _⟩

namespace Run

variable {σ : Type} {engines : Engines σ} {run after next : Run σ}

/-- Whether the engines that a scheduler has are those that it had. -/
def Equipped (run after : Run σ) : Prop :=
  after.scheduler.hasSource = run.scheduler.hasSource ∧
    after.scheduler.hasDestination = run.scheduler.hasDestination

/-- What looks at no pool leaves the engines alone. -/
theorem equipped_of_recast (same : after = after.recast run.shell []) : Equipped run after := by
  rw [same]
  exact ⟨rfl, rfl⟩

theorem equipped_perform {duty : Duty} (performed : run.perform engines duty = some next) :
    Equipped run next := by
  have aside (submits : ∀ number action, duty ≠ .submit number action)
      (closes : ∀ engine, duty ≠ .close engine) (joins : ∀ engine, duty ≠ .join engine) :
      Equipped run next := by
    have same := perform_recast run run.shell [] engines submits closes joins
    rw [show run.recast run.shell [] = run from rfl, performed] at same
    exact equipped_of_recast (Option.some.inj same)
  cases duty with
  | submit number action =>
    cases performed
    split
    · exact ⟨rfl, rfl⟩
    · dsimp only
      split <;> exact ⟨rfl, rfl⟩
  | close engine =>
    cases performed
    exact ⟨rfl, rfl⟩
  | join engine =>
    obtain ⟨stopped, _, rfl⟩ := Option.map_eq_some_iff.mp performed
    exact ⟨rfl, rfl⟩
  | _ => exact aside nofun nofun nofun

theorem Does.equipped {number : Nat} {task : Task} {action : Action} {stage later : Stage}
    (does : Does engines run number task action stage after later) : Equipped run after := by
  cases does with
  | call =>
    have same := callEngine_recast run run.shell [] engines number task action
    exact equipped_of_recast (congrArg Prod.snd same)
  | deliver execution changed delivery rest =>
    exact equipped_of_recast (deliver_recast run run.shell [] engines number delivery)
  | announce execution changed =>
    exact equipped_of_recast (announce_recast run run.shell [] number changed)
  | _ => exact ⟨rfl, rfl⟩

/-- No move changes which engines there are. -/
theorem equipped_step {move : Move} (moved : run.step engines move = some next) :
    Equipped run next := by
  cases move with
  | advance =>
    simp only [step, advance] at moved
    split at moved
    · cases moved
    · exact (equipped_perform moved :)
  | take engine =>
    obtain ⟨_, _, rfl⟩ := Option.map_eq_some_iff.mp moved
    exact ⟨rfl, rfl⟩
  | work engine place =>
    obtain ⟨ticket, task, job, found, goes⟩ := work_cases moved
    rcases goes with ⟨after, later, does, rfl⟩ | ⟨execution, ending, notices, _, rfl⟩
    · exact does.equipped
    · exact ⟨rfl, rfl⟩

end Run

namespace Scheduler

section Phases

variable {keeps : Scheduler → Scheduler → Prop} (refl : ∀ scheduler, keeps scheduler scheduler)
  (trans : ∀ {first second third}, keeps first second → keeps second third → keeps first third)
  (phased : ∀ scheduler engine phase, keeps scheduler
    (scheduler.setPool engine { scheduler.pools.get engine with phase := phase }))

include refl trans phased

/-- What is kept when a pool comes to another phase is kept when pools are started. -/
theorem startPools_keeps (scheduler : Scheduler) (engines : List Engine) :
    keeps scheduler (scheduler.startPools engines).1 := by
  induction engines generalizing scheduler with
  | nil => exact refl scheduler
  | cons engine rest hyp =>
    unfold startPools
    dsimp only
    split
    · exact hyp scheduler
    · split
      · exact refl scheduler
      · rename_i started start
        obtain ⟨rfl, _⟩ := start_eq start
        exact trans (phased scheduler engine .open) (hyp _)

/-- So it is when they are stopped. -/
theorem stopPools_keeps (scheduler : Scheduler) (engines : List Engine) :
    keeps scheduler (scheduler.stopPools engines).1 := by
  induction engines generalizing scheduler with
  | nil => exact refl scheduler
  | cons engine rest hyp =>
    unfold stopPools
    split
    · exact hyp scheduler
    · rename_i stopped joined
      have closes : stopped = { scheduler.pools.get engine with phase := .closed } := by
        obtain ⟨_, _, rfl⟩ := Pool.join_eq joined
        unfold Pool.close
        split <;> rfl
      rw [closes]
      exact trans (phased scheduler engine .closed) (hyp _)

end Phases

/-- Whether a scheduler has what another one was made with, and pools with the same names and sizes
that have given out no fewer numbers. -/
structure Became (scheduler after : Scheduler) : Prop where
  store : after.store = scheduler.store
  source : after.hasSource = scheduler.hasSource
  destination : after.hasDestination = scheduler.hasDestination
  verifies : after.verifiesItself = scheduler.verifiesItself
  pools : ∀ engine, (after.pools.get engine).name = (scheduler.pools.get engine).name ∧
    (after.pools.get engine).size = (scheduler.pools.get engine).size ∧
    (scheduler.pools.get engine).next ≤ (after.pools.get engine).next

namespace Became

variable {scheduler after last : Scheduler}

theorem refl (scheduler : Scheduler) : Became scheduler scheduler :=
  ⟨rfl, rfl, rfl, rfl, fun _ => ⟨rfl, rfl, Nat.le_refl _⟩⟩

theorem trans (first : Became scheduler after) (second : Became after last) :
    Became scheduler last where
  store := second.store.trans first.store
  source := second.source.trans first.source
  destination := second.destination.trans first.destination
  verifies := second.verifies.trans first.verifies
  pools engine := by
    obtain ⟨name, size, next⟩ := first.pools engine
    obtain ⟨name', size', next'⟩ := second.pools engine
    exact ⟨name'.trans name, size'.trans size, next.trans next'⟩

theorem setPool {engine : Engine} {pool : Pool Job}
    (grows : pool.name = (scheduler.pools.get engine).name ∧
      pool.size = (scheduler.pools.get engine).size ∧
      (scheduler.pools.get engine).next ≤ pool.next) :
    Became scheduler (scheduler.setPool engine pool) where
  store := rfl
  source := rfl
  destination := rfl
  verifies := rfl
  pools other := by
    have found : (scheduler.setPool engine pool).pools.get other = _ := Pools.get_set ..
    rw [found]
    split
    · rename_i same
      rw [same]
      exact grows
    · exact ⟨rfl, rfl, Nat.le_refl _⟩

end Became

theorem became_phase (scheduler : Scheduler) (engine : Engine) (phase : PoolPhase) :
    scheduler.Became
      (scheduler.setPool engine { scheduler.pools.get engine with phase := phase }) :=
  .setPool ⟨rfl, rfl, Nat.le_refl _⟩

theorem became_startPools (scheduler : Scheduler) (engines : List Engine) :
    scheduler.Became (scheduler.startPools engines).1 :=
  startPools_keeps .refl .trans became_phase scheduler engines

theorem became_stopPools (scheduler : Scheduler) (engines : List Engine) :
    scheduler.Became (scheduler.stopPools engines).1 :=
  stopPools_keeps .refl .trans became_phase scheduler engines

theorem became_launch {σ : Type} {scheduler : Scheduler} {tasks : List Task} {listed : List Nat}
    {state : σ} {run : Run σ} (launched : scheduler.launch tasks listed state = .started run) :
    scheduler.Became run.scheduler := by
  have became := became_startPools scheduler Engine.all
  unfold launch at launched
  split at launched
  · cases launched
  · split at launched
    · cases launched
    · rename_i ready notices started
      rw [started] at became
      cases launched
      exact ⟨became.store, became.source, became.destination, became.verifies, became.pools⟩

theorem became_refused {σ : Type} {scheduler stopped : Scheduler} {tasks : List Task}
    {listed : List Nat} {state : σ} {error : SchedulerError} {notices : List Notice}
    (launched : scheduler.launch tasks listed state = .refused error stopped notices) :
    scheduler.Became stopped := by
  have became := became_startPools scheduler Engine.all
  unfold launch at launched
  split at launched
  · cases launched
    exact .refl scheduler
  · split at launched
    · rename_i halfway started error' started_eq
      rw [started_eq] at became
      cases launched
      exact became.trans (became_stopPools halfway Engine.all)
    · cases launched

theorem became_step {σ : Type} {engines : Engines σ} {run next : Run σ} {move : Run.Move}
    (moved : run.step engines move = some next) : run.scheduler.Became next.scheduler :=
  have frame := Run.step_frame moved
  have equipped := Run.equipped_step moved
  ⟨frame.store, equipped.1, equipped.2, frame.verifies, fun engine => (frame.pools engine).grows⟩

theorem became_steps {σ : Type} {engines : Engines σ} {run last : Run σ} {moves : List Run.Move}
    (reached : run.steps engines moves = some last) : run.scheduler.Became last.scheduler := by
  have keeps : ∀ {now next : Run σ} {move}, run.scheduler.Became now.scheduler →
      now.step engines move = some next → run.scheduler.Became next.scheduler :=
    fun became moved => became.trans (became_step moved)
  exact Run.steps_induction keeps (.refl _) reached

/-! ### Calls -/

/-- One call of a scheduler, whatever its engines are: it refuses to run, or it runs to the end. -/
inductive Called (scheduler : Scheduler) : Scheduler → Prop
  | refused {σ : Type} {tasks : List Task} {listed : List Nat} {state : σ} {error : SchedulerError}
      {stopped : Scheduler} {notices : List Notice}
      (launched : scheduler.launch tasks listed state = .refused error stopped notices) :
    Called scheduler stopped
  | ran {σ : Type} {engines : Engines σ} {tasks : List Task} {listed : List Nat} {state : σ}
      {run last : Run σ} {moves : List Run.Move}
      (launched : scheduler.launch tasks listed state = .started run)
      (reached : run.steps engines moves = some last) (past : last.isOver = true) :
    Called scheduler last.scheduler

variable {scheduler after : Scheduler}

theorem Called.became (called : scheduler.Called after) : scheduler.Became after := by
  cases called with
  | refused launched => exact became_refused launched
  | ran launched reached past => exact (became_launch launched).trans (became_steps reached)

/-- After a call a scheduler is at rest again. -/
theorem Called.atRest (called : scheduler.Called after) (resting : scheduler.AtRest) :
    after.AtRest := by
  cases called with
  | refused launched => exact resting.refused launched
  | ran launched reached past =>
    have joining := (resting.begins launched).joining.steps reached
    exact fun engine =>
      have ⟨closed, empty⟩ := joining.empty past engine
      ⟨empty, .inr closed⟩

/-- So it is after some calls. -/
theorem became_of_calls (calls : Relation.ReflTransGen Called scheduler after)
    (resting : scheduler.AtRest) : scheduler.Became after ∧ after.AtRest := by
  induction calls with
  | refl => exact ⟨.refl scheduler, resting⟩
  | tail _ called hyp => exact ⟨hyp.1.trans called.became, called.atRest hyp.2⟩

end Scheduler

/-! ### Schedulers that were used before -/

namespace Pool

variable {α : Type} {past : Past} {fresh used : Pool α}

/-- Whether a pool is the same as another one, but that it was used before. It may be closed where
the other one was never started. -/
structure Reused (past : Past) (fresh used : Pool α) : Prop where
  same : used = { fresh.aged past with phase := used.phase }
  phase : used.phase = fresh.phase ∨ fresh.phase = .idle ∧ used.phase = .closed

namespace Reused

theorem of_aged (fresh : Pool α) : Reused past fresh (fresh.aged past) :=
  ⟨rfl, .inl rfl⟩

theorem isRunning (reused : Reused past fresh used) : used.isRunning = fresh.isRunning := by
  unfold Pool.isRunning
  rcases reused.phase with same | ⟨idle, closed⟩
  · rw [same]
  · rw [idle, closed]
    rfl

/-- A pool that is open was started, and is the same as the other one then. -/
theorem eq_of_open (reused : Reused past fresh used) (opened : used.phase = .open) :
    used = fresh.aged past := by
  rcases reused.phase with same | ⟨_, closed⟩
  · rw [reused.same, same]
    rfl
  · rw [opened] at closed
    cases closed

/-- Both start, or neither does, for the same reason. -/
theorem start (reused : Reused past fresh used) :
    (∃ error, fresh.start = .error error ∧ used.start = .error error) ∨
      ∃ started, fresh.start = .ok started ∧ used.start = .ok (started.aged past) := by
  obtain ⟨same, phase⟩ := reused
  generalize used.phase = now at same phase
  subst same
  have workers :
      ({ fresh.aged past with phase := now } : Pool α).hasWorkers = fresh.hasWorkers := by
    unfold hasWorkers
    rcases phase with rfl | ⟨idle, rfl⟩
    · rfl
    · rw [idle]
      rfl
  unfold Pool.start
  rw [workers]
  by_cases on : fresh.hasWorkers = true
  · exact .inl ⟨_, if_pos on, if_pos on⟩
  · by_cases unmanned : fresh.size.workers = 0
    · refine .inl ⟨.noWorkers, ?_, ?_⟩
      · rw [if_neg on, if_pos unmanned]
      · rw [if_neg on]
        exact if_pos unmanned
    · by_cases no_place : fresh.size.places = 0
      · refine .inl ⟨.noPlaces, ?_, ?_⟩
        · rw [if_neg on, if_neg unmanned, if_pos no_place]
        · rw [if_neg on]
          exact (if_neg unmanned).trans (if_pos no_place)
      · refine .inr ⟨{ fresh with phase := .open }, ?_, ?_⟩
        · rw [if_neg on, if_neg unmanned, if_neg no_place]
        · rw [if_neg on]
          exact (if_neg unmanned).trans (if_neg no_place)

/-- Both stop, or neither does. -/
theorem stop (reused : Reused past fresh used) :
    fresh.close.join? = none ∧ used.close.join? = none ∨
      ∃ stopped, fresh.close.join? = some stopped ∧
        used.close.join? = some (stopped.aged past) := by
  rcases reused.phase with same | ⟨idle, closed⟩
  · have aged : used = fresh.aged past := by
      rw [reused.same, same]
      rfl
    rw [aged, close_aged, join_aged]
    cases fresh.close.join? with
    | none => exact .inl ⟨rfl, rfl⟩
    | some stopped => exact .inr ⟨stopped, rfl, rfl⟩
  · refine .inl ⟨?_, ?_⟩
    · unfold close join?
      simp [idle]
    · unfold close join?
      simp [closed]

end Reused

end Pool

namespace Scheduler

/-- Whether a scheduler is the same as another one, but that its pools were used before. -/
structure Reused (past : Engine → Past) (fresh used : Scheduler) : Prop where
  store : used.store = fresh.store
  source : used.hasSource = fresh.hasSource
  destination : used.hasDestination = fresh.hasDestination
  verifies : used.verifiesItself = fresh.verifiesItself
  pools : ∀ engine, Pool.Reused (past engine) (fresh.pools.get engine) (used.pools.get engine)

namespace Reused

variable {past : Engine → Past} {fresh used : Scheduler}

theorem setPool (reused : Reused past fresh used) {engine : Engine} {pool pool' : Pool Job}
    (same : Pool.Reused (past engine) pool pool') :
    Reused past (fresh.setPool engine pool) (used.setPool engine pool') where
  store := reused.store
  source := reused.source
  destination := reused.destination
  verifies := reused.verifies
  pools other := by
    show Pool.Reused _ ((fresh.pools.set engine pool).get other)
      ((used.pools.set engine pool').get other)
    rw [Pools.get_set, Pools.get_set]
    split
    · rename_i equal
      exact equal ▸ same
    · exact reused.pools other

theorem startPools (reused : Reused past fresh used) (engines : List Engine) :
    Reused past (fresh.startPools engines).1 (used.startPools engines).1 ∧
      (used.startPools engines).2 = (fresh.startPools engines).2 := by
  induction engines generalizing fresh used with
  | nil => exact ⟨reused, rfl⟩
  | cons engine rest hyp =>
    unfold Scheduler.startPools
    dsimp only
    have pool := reused.pools engine
    have name : (used.pools.get engine).name = (fresh.pools.get engine).name := by
      rw [pool.same]
      rfl
    rw [pool.isRunning]
    split
    · exact hyp reused
    · rcases pool.start with ⟨error, here, there⟩ | ⟨started, here, there⟩
      · rw [here, there, name]
        exact ⟨reused, rfl⟩
      · rw [here, there]
        dsimp only
        obtain ⟨later, same⟩ := hyp (reused.setPool (.of_aged started))
        exact ⟨later, congrArg (fun told : List Notice × Option SchedulerError =>
          (started.startNotice :: told.1, told.2)) same⟩

theorem stopPools (reused : Reused past fresh used) (engines : List Engine) :
    (used.stopPools engines).2 = (fresh.stopPools engines).2 := by
  induction engines generalizing fresh used with
  | nil => rfl
  | cons engine rest hyp =>
    unfold Scheduler.stopPools
    rcases (reused.pools engine).stop with ⟨here, there⟩ | ⟨stopped, here, there⟩
    · rw [here, there]
      exact hyp reused
    · rw [here, there]
      dsimp only
      rw [hyp (reused.setPool (.of_aged stopped))]
      rfl

/-- **Both refuse a run for the same reason, or both begin it.** -/
theorem launch {σ : Type} (reused : Reused past fresh used) (resting : used.AtRest)
    (tasks : List Task) (listed : List Nat) (state : σ) :
    (∃ error stopped stopped' notices,
      fresh.launch tasks listed state = .refused error stopped notices ∧
      used.launch tasks listed state = .refused error stopped' notices) ∨
    ∃ first second, fresh.launch tasks listed state = .started first ∧
      used.launch tasks listed state = .started second ∧ Run.Renewed past first second := by
  have begins : ∀ run, used.launch tasks listed state = .started run →
      ∀ engine, (run.scheduler.pools.get engine).phase = .open :=
    fun run launched engine => ((resting.begins launched).pools engine).1
  obtain ⟨ready, same⟩ := reused.startPools Engine.all
  unfold Scheduler.launch at begins ⊢
  rw [reused.source, reused.destination] at begins ⊢
  split
  · exact .inl ⟨_, _, _, _, rfl, rfl⟩
  · rename_i equipped
    rw [if_neg equipped] at begins
    generalize fresh.startPools Engine.all = here at ready same ⊢
    generalize used.startPools Engine.all = there at ready same begins ⊢
    obtain ⟨halfway, notices, error⟩ := here
    obtain ⟨halfway', told⟩ := there
    cases same
    cases error with
    | some error =>
      have stopped : (halfway'.stopPools Engine.all).2 = (halfway.stopPools Engine.all).2 :=
        ready.stopPools Engine.all
      refine .inl ⟨error, _, (halfway'.stopPools Engine.all).1,
        notices ++ (halfway.stopPools Engine.all).2, rfl, ?_⟩
      dsimp only
      rw [stopped]
    | none =>
      refine .inr ⟨_, _, rfl, rfl, ?_⟩
      have aged : ∀ engine, halfway'.pools.get engine =
          (halfway.pools.get engine).aged (past engine) :=
        fun engine => (ready.pools engine).eq_of_open (begins _ rfl engine)
      have store : halfway'.store = halfway.store := ready.store
      have verifies : halfway'.verifiesItself = halfway.verifiesItself := ready.verifies
      unfold reset
      rw [store, verifies]
      exact .of_recast rfl aged

end Reused

/-- What the pools of a scheduler have done. -/
def past (scheduler : Scheduler) (engine : Engine) : Past :=
  ⟨(scheduler.pools.get engine).next - 1, (scheduler.pools.get engine).stats⟩

/-- **After some calls a scheduler is a new one whose pools were used.** -/
theorem reused_of_calls {store : Option StoreRef} {hasSource hasDestination verifiesItself : Bool}
    {sizes : Engine → PoolSize} {used : Scheduler} (calls : Relation.ReflTransGen Called
      (create store hasSource hasDestination verifiesItself sizes) used) :
    Reused used.past (create store hasSource hasDestination verifiesItself sizes) used := by
  obtain ⟨became, resting⟩ := became_of_calls calls (atRest_create _ _ _ _ _)
  refine ⟨became.store, became.source, became.destination, became.verifies, fun engine => ?_⟩
  have made : (create store hasSource hasDestination verifiesItself sizes).pools.get engine =
      .create engine.poolName (sizes engine) := by
    cases engine <;> rfl
  obtain ⟨name, size, next⟩ := became.pools engine
  obtain ⟨⟨queue, running⟩, phase⟩ := resting engine
  unfold Scheduler.past
  rw [made] at name size next ⊢
  refine ⟨?_, phase.imp_right fun closed => ⟨rfl, closed⟩⟩
  generalize used.pools.get engine = pool at name size next queue running
  obtain ⟨name', size', phase', next', queue', running', stats⟩ := pool
  obtain ⟨given, rfl⟩ := Nat.exists_eq_add_of_le' next
  cases name
  cases size
  cases queue
  cases running
  rfl

end Scheduler

/-! ### The next run -/

/-- Whether two runs can be told apart by nothing but the numbers of jobs: they have left the same
tasks and the same state of stores and engines, report the same, are over or not, and have made the
same calls of engines and stores with the same results. -/
structure Run.Agrees {σ : Type} (first second : Run σ) : Prop where
  tasks : second.tasks = first.tasks
  state : second.state = first.state
  report : second.report = first.report
  isOver : second.isOver = first.isOver
  calls : second.events.filter (fun event => !event.isNotice) =
    first.events.filter fun event => !event.isNotice
  heard : second.events.map Event.unnumbered = first.events.map Event.unnumbered

theorem Run.Renewed.agrees {σ : Type} {past : Engine → Past} {first second : Run σ}
    (renewed : Renewed past first second) : Agrees first second := by
  have heard := renewed.heard
  have calls : second.events.filter (fun event => !event.isNotice) =
      first.events.filter fun event => !event.isNotice := by
    rw [Event.calls_eq, heard, ← Event.calls_eq]
  obtain ⟨core⟩ := renewed
  exact ⟨rfl, rfl, rfl, rfl, calls, heard⟩

/-- **A scheduler carries nothing from one run to the next.** Let a scheduler have been called any
number of times before, with whatever tasks, engines and outcome. Then the next call refuses to run
for the same reason as a new scheduler with the same arguments, or both begin a run, and whatever
moves are made in the one can be made in the other: the runs cannot be told apart. -/
theorem Scheduler.carries_nothing {store : Option StoreRef}
    {hasSource hasDestination verifiesItself : Bool} {sizes : Engine → PoolSize} {used : Scheduler}
    (calls : Relation.ReflTransGen Called
      (create store hasSource hasDestination verifiesItself sizes) used)
    {σ : Type} (tasks : List Task) (listed : List Nat) (state : σ) :
    (∃ error stopped stopped' notices,
      (create store hasSource hasDestination verifiesItself sizes).launch tasks listed state =
        .refused error stopped notices ∧
      used.launch tasks listed state = .refused error stopped' notices) ∨
    ∃ first second,
      (create store hasSource hasDestination verifiesItself sizes).launch tasks listed state =
        .started first ∧
      used.launch tasks listed state = .started second ∧
      ∀ engines moves,
        Option.Rel Run.Agrees (first.steps engines moves) (second.steps engines moves) := by
  have resting := (became_of_calls calls (atRest_create _ _ _ _ _)).2
  rcases (reused_of_calls calls).launch resting tasks listed state with
    refused | ⟨first, second, launched, launched', renewed⟩
  · exact .inl refused
  · refine .inr ⟨first, second, launched, launched', fun engines moves => ?_⟩
    have after := renewed.steps engines moves
    generalize first.steps engines moves = here at after ⊢
    generalize second.steps engines moves = there at after ⊢
    cases after with
    | none => exact .none
    | some renewed => exact .some renewed.agrees

namespace Scheduler

open Run (storedScheduler loadTask failingEngines secondFails smallTask)

/-- A scheduler that was left with a failed table runs the small task as a new one does. -/
theorem carries_nothing_failed : ∃ used first second,
    Relation.ReflTransGen Called storedScheduler used ∧ used.failedTables = ["d.u"] ∧
    storedScheduler.launch [smallTask] [0] () = .started first ∧
    used.launch [smallTask] [0] () = .started second ∧
    ∀ moves, Option.Rel Run.Agrees (first.steps (Campaign.easyEngines 0) moves)
      (second.steps (Campaign.easyEngines 0) moves) := by
  have goes : (storedScheduler.launch [loadTask "d" "t", loadTask "d" "u"] [0, 1] ()).leads
      (failingEngines 1) secondFails (fun _ last => last.isOver ∧
        last.scheduler.failedTables = ["d.u"]) = true := by decide +kernel
  obtain ⟨run, last, launched, reached, ends⟩ := Launch.of_leads goes
  obtain ⟨past, failed⟩ := of_decide_eq_true ends
  have calls : Relation.ReflTransGen Called storedScheduler last.scheduler :=
    .single (.ran launched reached past)
  have able : storedScheduler.Able := able_create (some 0) true fun _ => by decide
  obtain ⟨begun, launches⟩ := able.starts [smallTask] [0] ()
  rcases carries_nothing calls [smallTask] [0] () with
    ⟨_, _, _, _, refused, _⟩ | ⟨first, second, launched, launched', agree⟩
  · cases refused.symm.trans launches
  · exact ⟨last.scheduler, first, second, calls, failed, launched, launched',
      agree (Campaign.easyEngines 0)⟩

end Scheduler

end TableMigration
