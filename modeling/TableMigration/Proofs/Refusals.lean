/-
**Calls of a scheduler that are refused.**

* `Scheduler.objection?` — why a scheduler that was made with these engines and pool sizes refuses
  to run, if it does: an engine is missing, or a pool has no workers or no places.
* `Scheduler.startPools_error` — pools that are off start up to the first that cannot be started.
* `Scheduler.Rephased` — a scheduler is as it was, but for the phases of its pools. This is all that
  starting and stopping them comes to.
* `Scheduler.runs_or_refuses` — whatever a scheduler was called for before, it refuses just for this
  reason, and then nothing has happened; otherwise it runs.
-/

import TableMigration.Proofs.Refinement
import TableMigration.Proofs.Reuse
import TableMigration.Scheduler.Drive

namespace TableMigration

/-! ### Reasons -/

/-- Why a pool of this size cannot be started. -/
def PoolSize.defect? (size : PoolSize) : Option PoolError :=
  if size.workers = 0 then some .noWorkers
  else if size.places = 0 then some .noPlaces
  else none

theorem PoolSize.defect_isSome_iff (size : PoolSize) :
    size.defect?.isSome = true ↔ size.workers = 0 ∨ size.places = 0 := by
  unfold defect?
  split
  · rename_i sound
    simp [sound]
  · rename_i workers
    split
    · rename_i sound
      simp [sound]
    · rename_i places
      simp [workers, places]

namespace Pool

variable {α : Type} {pool : Pool α}

/-- A pool without workers starts, unless its size has a defect. -/
theorem start_of_off (off : pool.hasWorkers = false) : pool.start =
    match pool.size.defect? with
    | some error => .error error
    | none => .ok { pool with phase := .open } := by
  unfold start PoolSize.defect?
  rw [off, if_neg Bool.false_ne_true]
  by_cases workers : pool.size.workers = 0
  · rw [if_pos workers, if_pos workers]
  · rw [if_neg workers, if_neg workers]
    by_cases places : pool.size.places = 0
    · rw [if_pos places, if_pos places]
    · rw [if_neg places, if_neg places]

theorem isRunning_of_off (off : pool.hasWorkers = false) : pool.isRunning = false :=
  (Bool.or_eq_false_iff.mp off).1

end Pool

namespace Scheduler

/-- Why a scheduler refuses to run: its engines are asked for before its pools, and these in their
order. -/
def objection? (hasSource hasDestination : Bool) (sizes : Engine → PoolSize) :
    Option SchedulerError :=
  if hasSource && hasDestination then
    Engine.all.findSome? fun engine =>
      (sizes engine).defect?.map (.poolNotStarted engine.poolName)
  else some .enginesMissing

theorem objection_isSome_iff {hasSource hasDestination : Bool} {sizes : Engine → PoolSize} :
    (objection? hasSource hasDestination sizes).isSome = true ↔ hasSource = false ∨
      hasDestination = false ∨ ∃ engine, (sizes engine).workers = 0 ∨ (sizes engine).places = 0 := by
  unfold objection?
  split
  · rename_i equipped
    obtain ⟨source, destination⟩ := Bool.and_eq_true_iff.mp equipped
    simp only [source, destination, Bool.true_eq_false, false_or, List.findSome?_isSome_iff,
      Option.isSome_map, PoolSize.defect_isSome_iff]
    exact exists_congr fun engine => and_iff_right (by cases engine <;> decide)
  · rename_i lacking
    rw [Bool.not_eq_true, Bool.and_eq_false_iff] at lacking
    exact iff_of_true rfl (lacking.imp_right .inl)

/-! ### Starting and stopping -/

variable {scheduler after last : Scheduler} {engines : List Engine} {sizes : Engine → PoolSize}

/-- Whether a scheduler is as another one, but for the phases of its pools. -/
structure Rephased (scheduler after : Scheduler) : Prop where
  rest : after = { scheduler with pools := after.pools }
  pools : ∀ engine, after.pools.get engine =
    { scheduler.pools.get engine with phase := (after.pools.get engine).phase }

namespace Rephased

theorem refl (scheduler : Scheduler) : Rephased scheduler scheduler :=
  ⟨rfl, fun _ => rfl⟩

theorem trans (first : Rephased scheduler after) (second : Rephased after last) :
    Rephased scheduler last := by
  refine ⟨?_, fun engine => ?_⟩
  · rw [second.rest, first.rest]
  · rw [second.pools engine, first.pools engine]

theorem setPool (scheduler : Scheduler) (engine : Engine) (phase : PoolPhase) :
    Rephased scheduler
      (scheduler.setPool engine { scheduler.pools.get engine with phase := phase }) := by
  refine ⟨rfl, fun other => ?_⟩
  have found : (scheduler.setPool engine { scheduler.pools.get engine with phase := phase }).pools.get
      other = _ := Pools.get_set ..
  rw [found]
  split
  · rename_i same
    rw [same]
  · rfl

theorem startPools (scheduler : Scheduler) (engines : List Engine) :
    Rephased scheduler (scheduler.startPools engines).1 :=
  startPools_keeps refl trans setPool scheduler engines

theorem stopPools (scheduler : Scheduler) (engines : List Engine) :
    Rephased scheduler (scheduler.stopPools engines).1 :=
  stopPools_keeps refl trans setPool scheduler engines

end Rephased

/-- Pools that are off start one after the other, up to the first whose size has a defect. -/
theorem startPools_error (distinct : engines.Nodup)
    (off : ∀ engine ∈ engines, (scheduler.pools.get engine).hasWorkers = false)
    (made : ∀ engine ∈ engines, (scheduler.pools.get engine).name = engine.poolName ∧
      (scheduler.pools.get engine).size = sizes engine) :
    (scheduler.startPools engines).2.2 = engines.findSome? fun engine =>
      (sizes engine).defect?.map (.poolNotStarted engine.poolName) := by
  induction engines generalizing scheduler with
  | nil => rfl
  | cons engine rest hyp =>
    obtain ⟨fresh, distinct⟩ := List.nodup_cons.mp distinct
    have here := off engine List.mem_cons_self
    obtain ⟨name, size⟩ := made engine List.mem_cons_self
    have defect := congrArg PoolSize.defect? size
    unfold startPools
    dsimp only
    rw [Pool.isRunning_of_off here, if_neg Bool.false_ne_true, Pool.start_of_off here,
      List.findSome?_cons, defect]
    cases (sizes engine).defect? with
    | some error =>
      dsimp only [Option.map_some]
      rw [name]
    | none =>
      have others : ∀ other ∈ rest, (scheduler.setPool engine
          { scheduler.pools.get engine with phase := .open }).pools.get other =
          scheduler.pools.get other := by
        intro other behind
        have apart : other ≠ engine := fun same => fresh (same ▸ behind)
        exact (Pools.get_set ..).trans (if_neg apart)
      exact hyp distinct
        (fun other behind => others other behind ▸ off other (List.mem_cons_of_mem _ behind))
        (fun other behind => others other behind ▸ made other (List.mem_cons_of_mem _ behind))

/-! ### Calls -/

variable {σ : Type} {used stopped : Scheduler} {tasks : List Task} {listed : List Nat} {state : σ}
  {hasSource hasDestination verifiesItself : Bool} {store : Option StoreRef}

/-- A pool that is at rest is off. -/
theorem AtRest.off (resting : scheduler.AtRest) (engine : Engine) :
    (scheduler.pools.get engine).hasWorkers = false := by
  unfold Pool.hasWorkers
  rcases (resting engine).2 with phase | phase <;> rw [phase] <;> rfl

/-- A call that is refused leaves the scheduler as it was, but for the phases of its pools. -/
theorem rephased_of_refused {error : SchedulerError} {notices : List Notice}
    (launched : scheduler.launch tasks listed state = .refused error stopped notices) :
    Rephased scheduler stopped := by
  have starts := Rephased.startPools scheduler Engine.all
  unfold launch at launched
  split at launched
  · cases launched
    exact .refl scheduler
  · split at launched
    · rename_i halfway started error' same
      cases launched
      rw [same] at starts
      exact starts.trans (Rephased.stopPools halfway Engine.all)
    · cases launched

/-- What a scheduler that was called before refuses to run for, it would have refused at first. -/
theorem launch_of_calls (calls : Relation.ReflTransGen Called
      (create store hasSource hasDestination verifiesItself sizes) used)
    (tasks : List Task) (listed : List Nat) (state : σ) :
    (∃ error stopped notices, objection? hasSource hasDestination sizes = some error ∧
      used.launch tasks listed state = .refused error stopped notices) ∨
    ∃ run, objection? hasSource hasDestination sizes = none ∧
      used.launch tasks listed state = .started run := by
  obtain ⟨became, resting⟩ := became_of_calls calls (atRest_create _ _ _ _ _)
  have made : ∀ engine ∈ Engine.all, (used.pools.get engine).name = engine.poolName ∧
      (used.pools.get engine).size = sizes engine := by
    intro engine _
    obtain ⟨name, size, _⟩ := became.pools engine
    cases engine <;> exact ⟨name, size⟩
  have error := startPools_error (by decide) (fun engine _ => resting.off engine) made
  have source : used.hasSource = hasSource := became.source
  have destination : used.hasDestination = hasDestination := became.destination
  unfold launch objection?
  rw [source, destination]
  by_cases equipped : (hasSource && hasDestination) = true
  · rw [equipped, if_pos rfl, if_neg (by decide), ← error]
    split
    · rename_i halfway notices error' same
      rw [same]
      exact .inl ⟨error', _, _, rfl, rfl⟩
    · rename_i ready notices same
      rw [same]
      exact .inr ⟨_, rfl, rfl⟩
  · have lacking := Bool.not_eq_true _ ▸ equipped
    rw [lacking, if_neg Bool.false_ne_true, if_pos (by decide)]
    exact .inl ⟨.enginesMissing, used, [], rfl, rfl⟩

/-- What is left by a call that is refused: tasks with all that they know and with whoever listens
to them, stores and engines as they were, and a scheduler whose pools are off. -/
structure Untouched (used : Scheduler) (tasks : List Task) (state : σ) (result : RunResult σ) :
    Prop where
  tasks : result.tasks = tasks
  state : result.state = state
  /-- No engine was called and no request made of a store. -/
  calls : ∀ event ∈ result.events, event.isNotice = true
  scheduler : Rephased used result.scheduler
  off : ∀ engine, (result.scheduler.pools.get engine).hasWorkers = false ∧
    (result.scheduler.pools.get engine).Empty

/-- How a scheduler that was made with some engines and pool sizes answers a call. -/
structure RunsOrRefuses (hasSource hasDestination : Bool) (sizes : Engine → PoolSize)
    (used : Scheduler) (engines : Engines σ) (tasks : List Task) (listed : List Nat)
    (hold : Option Hold) (state : σ) : Prop where
  refuses : (∃ error, (used.run engines tasks listed hold state).report = .error error) ↔
    hasSource = false ∨ hasDestination = false ∨
      ∃ engine, (sizes engine).workers = 0 ∨ (sizes engine).places = 0
  /-- It says the first thing that it finds wrong, and leaves everything as it was. -/
  refused : ∀ error, (used.run engines tasks listed hold state).report = .error error →
    objection? hasSource hasDestination sizes = some error ∧
      Untouched used tasks state (used.run engines tasks listed hold state)
  /-- Otherwise there is a run, and some moves bring it to its end. -/
  runs : objection? hasSource hasDestination sizes = none →
    ∃ run moves last, used.launch tasks listed state = .started run ∧
      run.steps engines moves = some last ∧ last.isOver = true

/-- **A scheduler refuses to run just if it lacks an engine, or one of its pools workers or places,
and then nothing has happened.** -/
theorem runs_or_refuses (calls : Relation.ReflTransGen Called
      (create store hasSource hasDestination verifiesItself sizes) used)
    (engines : Engines σ) (tasks : List Task) (listed : List Nat) (hold : Option Hold) (state : σ) :
    RunsOrRefuses hasSource hasDestination sizes used engines tasks listed hold state := by
  have resting := (became_of_calls calls (atRest_create _ _ _ _ _)).2
  rcases launch_of_calls calls tasks listed state with
    ⟨error, stopped, notices, objection, launched⟩ | ⟨run, objection, launched⟩
  · have result : used.run engines tasks listed hold state =
        ⟨.error error, stopped, tasks, notices.map .notice, state⟩ := by
      unfold Scheduler.run
      rw [launched]
    refine ⟨?_, ?_, ?_⟩
    · rw [result, ← objection_isSome_iff, objection]
      exact iff_of_true ⟨error, rfl⟩ rfl
    · rw [result]
      rintro _ ⟨⟩
      refine ⟨objection, rfl, rfl, ?_, rephased_of_refused launched, fun engine => ?_⟩
      · rintro event member
        obtain ⟨notice, _, rfl⟩ := List.mem_map.mp member
        rfl
      · have rests := resting.refused launched
        exact ⟨rests.off engine, (rests engine).1⟩
    · rw [objection]
      nofun
  · have succeeds : ∀ error, (used.run engines tasks listed hold state).report ≠ .error error := by
      unfold Scheduler.run
      rw [launched]
      nofun
    refine ⟨?_, fun error fails => absurd fails (succeeds error), fun _ => ?_⟩
    · rw [← objection_isSome_iff, objection]
      exact iff_of_false (fun ⟨error, fails⟩ => succeeds error fails) nofun
    · obtain ⟨moves, last, reached, past⟩ :=
        (resting.begins launched).healthy.completes engines
      exact ⟨run, moves, last, launched, reached, past⟩

open Run (smallTask)

/-- A scheduler whose last pool has no place to put a job. -/
def crampedScheduler : Scheduler :=
  .create none true true true fun engine => if engine = .validation then ⟨1, 0⟩ else ⟨1, 1⟩

/-- It refuses to run a second time as it did the first time, when two pools were started before the
third one was not. -/
theorem runs_or_refuses_cramped : ∃ used, Relation.ReflTransGen Called crampedScheduler used ∧
    used.pools.destination.phase = .closed ∧
    (used.run (Campaign.easyEngines 0) [smallTask] [0] none ()).report =
      .error (.poolNotStarted "validation" .noPlaces) ∧
    Untouched used [smallTask] () (used.run (Campaign.easyEngines 0) [smallTask] [0] none ()) := by
  have goes : (match crampedScheduler.launch [smallTask] [0] () with
      | .started _ => false
      | .refused _ stopped _ => decide (stopped.pools.destination.phase = .closed)) = true := by
    decide +kernel
  split at goes
  · cases goes
  · rename_i error stopped notices launched
    have calls : Relation.ReflTransGen Called crampedScheduler stopped := .single (.refused launched)
    obtain ⟨refuses, refused, _⟩ :=
      runs_or_refuses calls (Campaign.easyEngines 0) [smallTask] [0] none ()
    obtain ⟨error, fails⟩ := refuses.mpr (.inr (.inr ⟨.validation, .inr rfl⟩))
    obtain ⟨objection, untouched⟩ := refused error fails
    cases objection
    exact ⟨stopped, calls, of_decide_eq_true goes, fails, untouched⟩

end Scheduler

end TableMigration
