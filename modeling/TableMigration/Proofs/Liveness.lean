/-
**A run can always be brought to its end.**

* `Run.Heading` — where the agenda of a run is heading: a pass goes on and all pools are open, or the
  closing duties are left and every pool is as far as they say.
* `Run.Healthy` collects what holds of a run all along (`Run.Healthy.step`).
* `Run.Healthy.move` — as long as a run is not over there is a move that uses something up, so that
  some moves bring it to its end (`Run.Healthy.completes`).
-/

import Mathlib.Algebra.BigOperators.Group.Multiset.Basic
import TableMigration.Proofs.Campaign
import TableMigration.Proofs.Descent

namespace TableMigration

/-! ### Jobs that are left -/

/-- How much is left to do for a job. A report calls for two deliveries at most. -/
def Stage.weight : Stage → Nat
  | .call => 11
  | .keepCounts _ => 10
  | .keepValidation _ => 9
  | .report _ => 8
  | .deliver _ _ deliveries => 4 + deliveries.length
  | .announce .. => 3
  | .countOut _ => 2
  | .leave _ => 1

/-- How many jobs wait. -/
def Pools.waiting (pools : Pools) : Nat :=
  pools.source.queue.length + pools.destination.queue.length + pools.validation.queue.length

theorem Pools.waiting_set (pools : Pools) (engine : Engine) (pool : Pool Job) :
    (pools.set engine pool).waiting + (pools.get engine).queue.length =
      pools.waiting + pool.queue.length := by
  cases engine <;> simp only [waiting, set, get] <;> omega

namespace Run

variable {σ : Type} {engines : Engines σ} {run after next : Run σ}

/-- How much is left to do for all jobs. -/
def load (run : Run σ) : Nat :=
  (run.ledger.jobs.map fun job => job.stage.weight).sum + run.scheduler.pools.waiting

theorem Does.lighter {number : Nat} {task : Task} {action : Action} {stage later : Stage}
    (does : Does engines run number task action stage after later) :
    later.weight < stage.weight := by
  cases does with
  | report execution =>
    have deliveries := task.deliveries_update_le action execution.progress
    simp only [Stage.weight]
    omega
  | deliver => simp [Stage.weight]
  | delivered => simp [Stage.weight]
  | _ => exact Nat.lt_succ_self _

/-- A worker can go on with a job of a task that exists. -/
theorem exists_work {engine : Engine} {place : Nat} {ticket : Ticket Job} {task : Task}
    (job : (run.scheduler.pools.get engine).running[place]? = some ticket)
    (found : run.tasks[ticket.job.task]? = some task) :
    ∃ next, run.work engines engine place = some next := by
  obtain ⟨number, priority, taskNumber, action, stage⟩ := ticket
  have found : run.tasks[taskNumber]? = some task := found
  unfold work
  simp only [job, found]
  exact ⟨_, rfl⟩

theorem lighter_work {engine : Engine} {place : Nat}
    (moved : run.work engines engine place = some next) : next.load < run.load := by
  obtain ⟨ticket, task, job, found, goes⟩ := work_cases moved
  obtain ⟨others, jobs, amended, finished⟩ := ledger_amend job
  have weight : (run.ledger.jobs.map fun job => job.stage.weight).sum =
      ticket.job.stage.weight + (others.map fun job => job.stage.weight).sum := by
    rw [jobs, Multiset.map_cons, Multiset.sum_cons]
  rcases goes with ⟨after, later, does, rfl⟩ | ⟨execution, ending, notices, leaves, rfl⟩
  · have waiting : (after.setPool engine ((after.scheduler.pools.get engine).amend place
        ⟨ticket.job.task, ticket.job.action, later⟩)).scheduler.pools.waiting =
        run.scheduler.pools.waiting := by
      have set := after.scheduler.pools.waiting_set engine
        ((after.scheduler.pools.get engine).amend place
          ⟨ticket.job.task, ticket.job.action, later⟩)
      have same : after.scheduler.pools.waiting = run.scheduler.pools.waiting := by
        rw [does.pools]
      exact (Nat.add_right_cancel set).trans same
    have lighter := does.lighter
    unfold load
    rw [amended after _ does.pools, weight, waiting]
    simp only [Multiset.map_cons, Multiset.sum_cons]
    omega
  · have waiting : (run.setPool engine
        ((run.scheduler.pools.get engine).finish place ending)).scheduler.pools.waiting =
        run.scheduler.pools.waiting := by
      have set := run.scheduler.pools.waiting_set engine
        ((run.scheduler.pools.get engine).finish place ending)
      have same : ((run.scheduler.pools.get engine).finish place ending).queue =
          (run.scheduler.pools.get engine).queue := by
        unfold Pool.finish
        split <;> rfl
      rw [same] at set
      exact Nat.add_right_cancel set
    unfold load
    rw [(aside_tell _ notices).ledger, finished, weight, (aside_tell _ notices).pools, waiting,
      leaves]
    simp only [Stage.weight]
    omega

/-- A worker that takes a job leaves fewer waiting. -/
theorem lighter_take {engine : Engine} (moved : run.takeJob engine = some next) :
    next.load < run.load := by
  simp only [takeJob, Option.map_eq_some_iff] at moved
  obtain ⟨⟨ticket, pool⟩, taken, rfl⟩ := moved
  have jobs : (run.setPool engine pool).ledger.jobs = run.ledger.jobs :=
    Pools.jobs_set_of_eq (Pool.jobs_take taken)
  have set := run.scheduler.pools.waiting_set engine pool
  have fewer : pool.queue.length < (run.scheduler.pools.get engine).queue.length := by
    obtain ⟨_, rest, waits, rfl⟩ := Pool.take_eq taken
    rw [waits]
    exact Nat.lt_succ_self _
  unfold load
  rw [jobs]
  show _ + (run.scheduler.pools.set engine pool).waiting < _
  omega

end Run

/-! ### How far the pools are -/

/-- What a duty does to the phase of a pool. -/
def Duty.settle (engine : Engine) (phase : PoolPhase) : Duty → PoolPhase
  | .close other => if other = engine ∧ phase = .open then .closing else phase
  | .join other => if other = engine then .closed else phase
  | _ => phase

theorem Duty.settle_of_rank {duty : Duty} (early : duty.rank < 4) (engine : Engine)
    (phase : PoolPhase) : duty.settle engine phase = phase := by
  cases duty with
  | close | join => exact absurd early (Nat.lt_irrefl 4)
  | _ => rfl

/-- How far a pool is while these closing duties are left. -/
def Duty.phaseBefore (tail : List Duty) (engine : Engine) : PoolPhase :=
  if .close engine ∈ tail then .open else if .join engine ∈ tail then .closing else .closed

theorem Duty.settle_phaseBefore {duty : Duty} {rest : List Duty}
    (suffix : duty :: rest <:+ Duty.closing) (engine : Engine) :
    duty.settle engine (phaseBefore (duty :: rest) engine) = phaseBefore rest engine := by
  have all : ∀ tail ∈ Duty.closing.tails, ∀ head ∈ tail.head?,
      head.settle engine (phaseBefore tail engine) = phaseBefore tail.tail engine := by
    cases engine <;> decide
  exact all _ ((List.mem_tails _ _).mpr suffix) duty rfl

/-- A pool that is waited for accepts no more jobs. -/
theorem Duty.phaseBefore_join {engine : Engine} {rest : List Duty}
    (suffix : .join engine :: rest <:+ Duty.closing) :
    phaseBefore (.join engine :: rest) engine = .closing := by
  have all : ∀ tail ∈ Duty.closing.tails, tail.head? = some (.join engine) →
      phaseBefore tail engine = .closing := by
    cases engine <;> decide
  exact all _ ((List.mem_tails _ _).mpr suffix) rfl

namespace Run

variable {σ : Type} {engines : Engines σ} {run after next : Run σ}

/-- How far the pool of an engine is. -/
def phase (run : Run σ) (engine : Engine) : PoolPhase :=
  (run.scheduler.pools.get engine).phase

theorem phase_setPool (engine : Engine) (pool : Pool Job) (other : Engine) :
    (run.setPool engine pool).phase other = if other = engine then pool.phase else run.phase other := by
  show ((run.scheduler.pools.set engine pool).get other).phase = _
  rw [Pools.get_set]
  split <;> rfl

theorem phase_setPool_same {engine : Engine} {pool : Pool Job} (same : pool.phase = run.phase engine)
    (other : Engine) : (run.setPool engine pool).phase other = run.phase other := by
  rw [phase_setPool]
  split
  · rename_i equal
    rw [same, equal]
  · rfl

theorem phase_reportProgress (run : Run σ) (number : Nat) (action : Action) (progress : Progress)
    (engine : Engine) :
    (run.reportProgress number action progress).1.phase engine = run.phase engine := by
  unfold reportProgress
  split <;> rfl

theorem Aside.phase (aside : Aside run after) (engine : Engine) :
    after.phase engine = run.phase engine := by
  unfold Run.phase
  rw [aside.pools]

theorem phase_perform {duty : Duty} (performed : run.perform engines duty = some next)
    (engine : Engine) : next.phase engine = duty.settle engine (run.phase engine) := by
  cases duty with
  | look number | collect number =>
    cases performed
    split <;> rfl
  | dispatch number action =>
    cases performed
    split
    · rfl
    · rename_i task _
      exact phase_reportProgress (run.tell [.dispatched task.name action]) number action .running
        engine
  | submit number action =>
    cases performed
    dsimp only
    split
    · rfl
    · have same : (run.setPool action.engine ((run.scheduler.pools.get action.engine).submit
          action.priority ⟨number, action, .call⟩).pool).phase engine = run.phase engine :=
        phase_setPool_same (Pool.phase_submit ..).1 engine
      split <;> exact same
  | refuse number action =>
    cases performed
    exact phase_reportProgress run number action .failed engine
  | deliver number delivery =>
    cases performed
    exact (aside_deliver engines run number delivery).phase engine
  | announce number progress =>
    cases performed
    exact (aside_announce run number (some progress)).phase engine
  | judge key =>
    cases performed
    split
    · rfl
    · split
      · rename_i group _ _
        exact (aside_finishTable engines run key group).phase engine
      · rfl
  | test =>
    cases performed
    split
    · rfl
    · split <;> rfl
  | giveUp key =>
    cases performed
    split
    · rfl
    · exact (aside_giveUp engines run key _).phase engine
  | close other =>
    cases performed
    rw [phase_setPool]
    show _ = if other = engine ∧ run.phase engine = .open then .closing else run.phase engine
    by_cases mine : engine = other
    · subst mine
      simp only [if_true, true_and]
      unfold Pool.close Run.phase
      split <;> rfl
    · rw [if_neg mine, if_neg fun both => mine both.1.symm]
  | join other =>
    simp only [perform, Option.map_eq_some_iff] at performed
    obtain ⟨stopped, joined, rfl⟩ := performed
    obtain ⟨_, _, rfl⟩ := Pool.join_eq joined
    show (run.setPool other _).phase engine = _
    rw [phase_setPool]
    show _ = if other = engine then .closed else run.phase engine
    by_cases mine : engine = other
    · rw [if_pos mine, if_pos mine.symm]
    · rw [if_neg mine, if_neg fun same => mine same.symm]
  | beginPass | countIn | countOut | wait | unlisten | conclude =>
    cases performed
    rfl

/-- Only the scheduling thread opens or closes pools. -/
theorem phase_step {move : Move} (moved : run.step engines move = some next)
    (works : move ≠ .advance) (engine : Engine) : next.phase engine = run.phase engine := by
  cases move with
  | advance => exact absurd rfl works
  | take other =>
    simp only [step, takeJob, Option.map_eq_some_iff] at moved
    obtain ⟨⟨ticket, pool⟩, taken, rfl⟩ := moved
    exact phase_setPool_same (Pool.phase_take taken).1 engine
  | work other place =>
    obtain ⟨ticket, task, job, found, goes⟩ := work_cases moved
    rcases goes with ⟨after, later, does, rfl⟩ | ⟨_, ending, _, _, rfl⟩
    · have same : after.phase engine = run.phase engine := by
        unfold phase
        rw [does.pools]
      have amended : ((after.scheduler.pools.get other).amend place
          ⟨ticket.job.task, ticket.job.action, later⟩).phase = after.phase other := rfl
      exact (phase_setPool_same amended engine).trans same
    · have same : ((run.scheduler.pools.get other).finish place ending).phase =
          run.phase other := by
        unfold Pool.finish
        split <;> rfl
      exact phase_setPool_same same engine

end Run

/-! ### Where an agenda is heading -/

/-- Whether an agenda is that of a pass: all that stands in front of the duty that decides how to go
on belongs to the pass. -/
def Duty.Passing (agenda : List Duty) : Prop :=
  ∃ front decide, agenda = front ++ [decide] ∧ decide.rank = 3 ∧ ∀ duty ∈ front, duty.rank < 3

/-- Whether these closing duties are left, and before them some tables to be given up. -/
def Duty.Leaving (agenda tail : List Duty) : Prop :=
  tail <:+ closing ∧ ∃ stuck : List String, agenda = stuck.map .giveUp ++ tail

/-- The duty that decides about a pass leads to a pass, or to the end with all tables given up that
are not finished. -/
theorem Ledger.Step.decided {ledger next : Ledger}
    {answers : Nat → Task → Action → Execution → Prop} {acts : List Act} {decide : Duty}
    (step : ledger.Step answers acts next) (agenda : ledger.agenda = [decide])
    (three : decide.rank = 3) : Duty.Passing next.agenda ∨
      next.agenda = (ledger.tables.unfinished.map Prod.fst).map .giveUp ++ Duty.closing ∧
        next.tables = ledger.tables := by
  have pops : ∀ {duty rest}, ledger.agenda = duty :: rest → decide = duty ∧ rest = [] := by
    intro duty rest head
    rw [agenda] at head
    cases head
    exact ⟨rfl, rfl⟩
  cases step with
  | beginPass head =>
    obtain ⟨rfl, rfl⟩ := pops head
    refine .inl ⟨_, .test, List.append_nil _, rfl, fun duty looks => ?_⟩
    rw [Duty.rank_looks looks]
    exact Nat.lt_succ_self 2
  | testDone head done =>
    obtain ⟨rfl, rfl⟩ := pops head
    rw [done]
    exact .inr ⟨List.append_nil _, rfl⟩
  | testStuck head =>
    obtain ⟨rfl, rfl⟩ := pops head
    rw [List.map_map]
    exact .inr ⟨List.append_nil _, rfl⟩
  | testOn head =>
    obtain ⟨rfl, rfl⟩ := pops head
    exact .inl ⟨[], .wait, rfl, rfl, List.forall_mem_nil _⟩
  | wait head =>
    obtain ⟨rfl, rfl⟩ := pops head
    exact .inl ⟨[], .beginPass, rfl, rfl, List.forall_mem_nil _⟩
  | absent head about =>
    obtain ⟨rfl, rfl⟩ := pops head
    exact absurd three (Duty.rank_of_subject about)
  | aside head isAside =>
    obtain ⟨rfl, rfl⟩ := pops head
    exact absurd three (Duty.rank_of_isAside isAside)
  | lookEnded head | lookOn head | collect head | dispatch head | countIn head | submit head
  | turnAway head | refuse head | countOut head | judgeNothing head | judge head | unlisten head =>
    obtain ⟨rfl, rfl⟩ := pops head
    cases three
  | _ => exact .inl ⟨[], decide, agenda, three, List.forall_mem_nil _⟩

/-- A pass goes on, or leads to the end. -/
theorem Ledger.Step.passing {ledger next : Ledger}
    {answers : Nat → Task → Action → Execution → Prop} {acts : List Act}
    (step : ledger.Step answers acts next) (pass : Duty.Passing ledger.agenda) :
    Duty.Passing next.agenda ∨
      next.agenda = (ledger.tables.unfinished.map Prod.fst).map .giveUp ++ Duty.closing ∧
        next.tables = ledger.tables := by
  obtain ⟨front, decide, split, three, early⟩ := pass
  cases front with
  | nil => exact step.decided split three
  | cons duty front =>
    have low := early duty List.mem_cons_self
    obtain ⟨duties, after, replaces⟩ := step.agenda split
    refine .inl ⟨duties ++ front, decide, ?_, three, fun other member => ?_⟩
    · rw [List.append_assoc]
      exact after
    · rcases List.mem_append.mp member with new | old
      · have bound := (replaces.low other new).resolve_right (by omega)
        omega
      · exact early other (List.mem_cons_of_mem _ old)

/-- What stands in the agenda of a pass decides about it or comes before. -/
theorem Duty.Passing.rank_le {agenda : List Duty} (pass : Passing agenda) {duty : Duty}
    (planned : duty ∈ agenda) : duty.rank ≤ 3 := by
  obtain ⟨front, decide, split, three, early⟩ := pass
  rw [split] at planned
  rcases List.mem_append.mp planned with before | last
  · exact Nat.le_of_lt (early duty before)
  · rw [List.mem_singleton.mp last, three]

namespace Run

variable {σ : Type} {engines : Engines σ} {run after next : Run σ}

/-- Where a run is heading: a pass goes on and all pools are open, or closing duties are left and
every pool is as far as they say. -/
inductive Heading (run : Run σ) : Prop
  | passing (pass : Duty.Passing run.agenda) (opened : ∀ engine, run.phase engine = .open)
  | leaving (tail : List Duty) (leave : Duty.Leaving run.agenda tail)
    (phases : ∀ engine, run.phase engine = Duty.phaseBefore tail engine)

theorem agenda_reportProgress (run : Run σ) (number : Nat) (action : Action)
    (progress : Progress) : (run.reportProgress number action progress).1.agenda = run.agenda := by
  unfold reportProgress
  split <;> rfl

/-- A duty that is done is not planned again at once. What stands behind all passes leads to nothing
new. -/
theorem agenda_perform {duty : Duty} (performed : run.perform engines duty = some next) :
    ∃ duties, next.agenda = duties ++ run.agenda ∧ duty ∉ duties ∧
      (duty.rank = 4 → duties = []) := by
  have still : ∀ {after : Run σ}, after.agenda = run.agenda → ∃ duties,
      after.agenda = duties ++ run.agenda ∧ duty ∉ duties ∧ (duty.rank = 4 → duties = []) :=
    fun same => ⟨[], same, List.not_mem_nil, fun _ => rfl⟩
  have follows : ∀ {number : Nat} {changed deliveries},
      (∀ delivery, duty ≠ .deliver number delivery) → (∀ progress, duty ≠ .announce number progress) →
      duty ∉ Duty.follow number changed deliveries := by
    intro number changed deliveries delivers announces member
    rcases Duty.mem_follow_cases member with ⟨delivery, _, same⟩ | ⟨progress, _, same⟩
    · exact delivers delivery same
    · exact announces progress same
  cases duty with
  | beginPass =>
    cases performed
    refine ⟨Duty.pass run.tables, rfl, fun member => ?_, nofun⟩
    rcases Duty.mem_pass_cases member with looks | test
    · cases looks
    · cases test
  | look number =>
    cases performed
    split
    · exact still rfl
    · exact ⟨[.collect number], rfl, by simp, nofun⟩
  | collect number =>
    cases performed
    split
    · exact still rfl
    · rename_i task _
      refine ⟨task.readyActions.map (.dispatch number), rfl, fun member => ?_, nofun⟩
      cases Duty.rank_dispatches member
  | dispatch number action =>
    cases performed
    split
    · exact still rfl
    · refine ⟨_, congrArg _ (agenda_reportProgress _ number action .running), fun member => ?_,
        nofun⟩
      rcases List.mem_append.mp member with following | handing
      · exact follows nofun nofun following
      · simp at handing
  | submit number action =>
    cases performed
    split
    · exact still rfl
    · dsimp only
      split
      · exact still rfl
      · exact ⟨[.refuse number action, .countOut], rfl, by simp, nofun⟩
  | refuse number action =>
    cases performed
    exact ⟨_, congrArg _ (agenda_reportProgress run number action .failed), follows nofun nofun,
      nofun⟩
  | deliver number delivery =>
    cases performed
    exact still (congrArg Ledger.agenda (aside_deliver engines run number delivery).ledger)
  | announce number progress =>
    cases performed
    exact still (congrArg Ledger.agenda (aside_announce run number (some progress)).ledger)
  | judge key =>
    cases performed
    split
    · exact still rfl
    · split
      · rename_i group _ _
        exact still (congrArg Ledger.agenda (aside_finishTable engines run key group).ledger)
      · exact still rfl
  | test =>
    cases performed
    split
    · refine ⟨Duty.closing, rfl, fun member => ?_, nofun⟩
      cases Duty.rank_closing member
    · split
      · refine ⟨_, rfl, fun member => ?_, nofun⟩
        cases Duty.rank_stuck member
      · exact ⟨[.wait], rfl, by simp, nofun⟩
  | wait =>
    cases performed
    exact ⟨[.beginPass], rfl, by simp, nofun⟩
  | giveUp key =>
    cases performed
    split
    · exact still rfl
    · exact still (congrArg Ledger.agenda (aside_giveUp engines run key _).ledger)
  | join engine =>
    simp only [perform, Option.map_eq_some_iff] at performed
    obtain ⟨_, _, rfl⟩ := performed
    exact still rfl
  | countIn | countOut | close | unlisten | conclude =>
    cases performed
    exact still rfl

/-- The scheduling thread turns to its next duty. -/
theorem advance_turns (moved : run.step engines .advance = some next) :
    next.ledger.agenda ≠ run.ledger.agenda := by
  intro same
  obtain ⟨duty, rest, agenda, performed⟩ := exists_of_advance moved
  obtain ⟨duties, after, new, _⟩ := agenda_perform performed
  have same : duties ++ rest = duty :: rest := after.symm.trans (Eq.trans same agenda)
  have only : duties = [duty] := List.append_cancel_right (same.trans List.singleton_append)
  exact new (only ▸ List.mem_cons_self)

/-- **A run keeps its heading.** -/
theorem Heading.step {move : Move} (heading : run.Heading)
    (moved : run.step engines move = some next) : next.Heading := by
  by_cases works : move ≠ .advance
  · have same := agenda_step moved works
    have phases := phase_step moved works
    cases heading with
    | passing pass opened =>
      exact .passing (same ▸ pass) fun engine => (phases engine).trans (opened engine)
    | leaving tail leave phases' =>
      exact .leaving tail (same ▸ leave) fun engine => (phases engine).trans (phases' engine)
  · have advances := not_not.mp works
    subst advances
    have step : run.ledger.Step (fun _ _ _ _ => True) _ next.ledger := advance_ledger moved
    obtain ⟨duty, rest, agenda, performed⟩ := exists_of_advance moved
    have phases : ∀ engine, next.phase engine = duty.settle engine (run.phase engine) := by
      intro engine
      have settled := phase_perform performed engine
      exact settled
    cases heading with
    | passing pass opened =>
      have early : duty.rank < 4 := Nat.lt_succ_of_le (pass.rank_le (agenda ▸ List.mem_cons_self))
      have opened' : ∀ engine, next.phase engine = .open := by
        intro engine
        rw [phases, Duty.settle_of_rank early, opened]
      rcases step.passing pass with pass | ⟨leave, _⟩
      · exact .passing pass opened'
      · refine .leaving Duty.closing ⟨List.suffix_refl _, _, leave⟩ fun engine => ?_
        rw [opened']
        cases engine <;> rfl
    | leaving tail leave phases' =>
      obtain ⟨suffix, stuck, split⟩ := leave
      obtain ⟨duties, after, _, nothing⟩ := agenda_perform performed
      rw [agenda] at split
      cases stuck with
      | nil =>
        have split : duty :: rest = tail := split
        subst split
        have last : duty.rank = 4 :=
          Duty.rank_closing (suffix.subset List.mem_cons_self)
        refine .leaving rest ⟨(List.suffix_cons duty rest).trans suffix, [], ?_⟩ fun engine => ?_
        · exact after.trans (congrArg (· ++ rest) (nothing last))
        · rw [phases, phases', Duty.settle_phaseBefore suffix]
      | cons key stuck =>
        obtain ⟨rfl, rfl⟩ := List.cons.inj split
        refine .leaving tail ⟨suffix, stuck, ?_⟩ fun engine => ?_
        · exact after.trans (congrArg (· ++ _) (nothing rfl))
        · exact (phases engine).trans (phases' engine)

end Run

/-! ### The tasks of jobs -/

/-- Tasks that nobody listens to any more are as many as before. -/
theorem Task.length_unlisten (listed : List Nat) (tasks : List Task) :
    (listed.foldl unlistenTo tasks).length = tasks.length := by
  induction listed generalizing tasks with
  | nil => rfl
  | cons number rest hyp => rw [List.foldl_cons, hyp, unlistenTo, List.length_modify]

namespace Ledger

variable {ledger next : Ledger} {answers : Nat → Task → Action → Execution → Prop}
  {acts : List Act}

/-- Whether the tasks of all jobs exist. -/
def Known (ledger : Ledger) : Prop :=
  ∀ job ∈ ledger.jobs, job.task < ledger.tasks.length

/-- No step adds a task or drops one. -/
theorem Step.length (step : ledger.Step answers acts next) :
    next.tasks.length = ledger.tasks.length := by
  cases step with
  | dispatch | refuse | keepCounts | keepValidation | report => exact List.length_set
  | @unlisten rest head listed => exact Task.length_unlisten listed ledger.tasks
  | _ => rfl

theorem Step.known (step : ledger.Step answers acts next) (known : ledger.Known) : next.Known := by
  have goOn : ∀ {number action stage later jobs}, ledger.jobs = ⟨number, action, stage⟩ ::ₘ jobs →
      ∀ job ∈ (⟨number, action, later⟩ : Job) ::ₘ jobs, job.task < ledger.tasks.length := by
    intro number action stage later jobs held job member
    rcases Multiset.mem_cons.mp member with rfl | other
    · exact known ⟨number, action, stage⟩ (held ▸ Multiset.mem_cons_self _ _)
    · exact known job (held ▸ Multiset.mem_cons_of_mem other)
  unfold Known
  rw [step.length]
  cases step with
  | @submit rest number action task head found =>
    intro job member
    rcases Multiset.mem_cons.mp member with rfl | other
    · exact (List.getElem?_eq_some_iff.mp found).1
    · exact known job other
  | execute held | follow held | complete held | keepCounts held | keepValidation held
  | report held => exact goOn held
  | leave held => exact fun job member => known job (held ▸ Multiset.mem_cons_of_mem member)
  | _ => exact known

end Ledger

/-! ### Runs that go on properly -/

namespace Run

variable {σ : Type} {engines : Engines σ} {run after next : Run σ}

/-- The workers do not disturb the quiet. -/
theorem quiet_step {move : Move} (moved : run.step engines move = some next)
    (works : move ≠ .advance) (balanced : run.ledger.Balanced) (quiet : run.ledger.Quiet) :
    next.ledger.Quiet := by
  cases move with
  | advance => exact absurd rfl works
  | take engine =>
    simp only [step, takeJob, Option.map_eq_some_iff] at moved
    obtain ⟨_, _, rfl⟩ := moved
    exact quiet
  | work engine place =>
    obtain ⟨ticket, task, job, found, goes⟩ := work_cases moved
    obtain ⟨others, held, amended, finished⟩ := ledger_amend job
    rcases goes with ⟨after, later, does, rfl⟩ | ⟨_, ending, notices, _, rfl⟩
    · rw [amended after _ does.pools]
      have opened := balanced.not_open quiet held
      obtain ⟨number, priority, taskNumber, action, stage⟩ := ticket
      cases does with
      | call =>
        rw [(aside_callEngine engines run taskNumber task action).ledger]
        exact quiet
      | deliver execution changed delivery rest =>
        rw [(aside_deliver engines run taskNumber delivery).ledger]
        exact quiet
      | announce execution changed =>
        rw [(aside_announce run taskNumber changed).ledger]
        exact quiet
      | countOut => cases opened
      | _ => exact quiet
    · rw [(aside_tell _ notices).ledger, finished]
      exact quiet

/-- What holds of a run all along. -/
structure Healthy (run : Run σ) : Prop where
  orderly : Duty.Orderly run.agenda
  sound : run.ledger.custody.Sound
  balanced : run.ledger.Balanced
  covered : run.ledger.Covered
  known : run.ledger.Known
  joining : run.Joining
  heading : run.Heading

/-- A move of a healthy run is a step of its custody. -/
theorem Healthy.goes {move : Move} (healthy : run.Healthy)
    (moved : run.step engines move = some next) : run.ledger.custody.Step Campaign.Finishes
      (run.acts engines move) next.ledger.custody :=
  (Campaign.step_finishes moved).custody (fun _ _ _ _ => id) healthy.orderly

/-- **A run stays healthy.** -/
theorem Healthy.step {move : Move} (healthy : run.Healthy)
    (moved : run.step engines move = some next) : next.Healthy := by
  have step := Campaign.step_finishes moved
  have goes := healthy.goes moved
  exact {
    orderly := step.orderly healthy.orderly
    sound := goes.sound healthy.sound fun _ _ _ _ => id
    balanced := step.balanced healthy.sound healthy.orderly healthy.balanced
    covered := step.covered healthy.orderly healthy.balanced healthy.sound goes healthy.covered
    known := step.known healthy.known
    joining := healthy.joining.step moved
    heading := healthy.heading.step moved }

/-- Whether a move uses something up: what the duties use up, or the work of the workers. -/
def Descends (run next : Run σ) : Prop :=
  run.ledger.Descends next.ledger ∨
    next.ledger.newActions = run.ledger.newActions ∧ next.ledger.unrest = run.ledger.unrest ∧
      next.ledger.phase = run.ledger.phase ∧ next.ledger.weight = run.ledger.weight ∧
        next.load < run.load

/-- What the workers do uses something up. -/
theorem Healthy.descends {move : Move} (healthy : run.Healthy)
    (moved : run.step engines move = some next) (works : move ≠ .advance)
    (lighter : next.load < run.load) : run.Descends next := by
  have step := Campaign.step_finishes moved
  have agenda : next.ledger.agenda = run.ledger.agenda := agenda_step moved works
  have weight : next.ledger.weight = run.ledger.weight := by
    unfold Ledger.weight
    rw [agenda]
  rcases Nat.lt_or_eq_of_le (step.newActions_le healthy.sound) with less | same
  · exact .inl (.inl less)
  by_cases quiet : next.ledger.Quiet ↔ run.ledger.Quiet
  · refine .inr ⟨same, ?_, ?_, weight, lighter⟩
    · unfold Ledger.unrest
      simp only [quiet]
    · unfold Ledger.phase
      simp only [agenda, quiet]
  · have calms : next.ledger.Quiet ∧ ¬ run.ledger.Quiet := by
      have stays := quiet_step moved works healthy.balanced
      tauto
    refine .inl (.inr ⟨same, .inl ?_⟩)
    unfold Ledger.unrest
    rw [if_pos calms.1, if_neg calms.2]
    exact Nat.zero_lt_one

/-- The duty that decides about a pass stands alone once it is reached. -/
theorem Heading.single (heading : run.Heading) {duty : Duty} {rest : List Duty}
    (head : run.agenda = duty :: rest) (three : duty.rank = 3) : rest = [] := by
  cases heading with
  | passing pass =>
    obtain ⟨front, decide, split, _, early⟩ := pass
    rw [head] at split
    cases front with
    | nil => exact (List.cons.inj split).2
    | cons first front =>
      obtain ⟨rfl, rfl⟩ := List.cons.inj split
      have := early duty List.mem_cons_self
      omega
  | leaving tail leave =>
    obtain ⟨suffix, stuck, split⟩ := leave
    have member : duty ∈ stuck.map Duty.giveUp ++ tail := split ▸ head ▸ List.mem_cons_self
    rcases List.mem_append.mp member with giving | closing
    · obtain ⟨_, _, rfl⟩ := List.mem_map.mp giving
      cases three
    · rw [Duty.rank_closing (suffix.subset closing)] at three
      cases three

/-- A pool that is waited for is closing. -/
theorem Heading.closing (heading : run.Heading) {engine : Engine} {rest : List Duty}
    (head : run.agenda = .join engine :: rest) : run.phase engine = .closing := by
  cases heading with
  | passing pass =>
    have low := pass.rank_le (head ▸ List.mem_cons_self)
    exact absurd low (Nat.not_succ_le_self 3)
  | leaving tail leave phases =>
    obtain ⟨suffix, stuck, split⟩ := leave
    rw [head] at split
    cases stuck with
    | nil =>
      have split : .join engine :: rest = tail := split
      subst split
      rw [phases, Duty.phaseBefore_join suffix]
    | cons key stuck => cases (List.cons.inj split).1

/-- Without jobs, the scheduling thread can do its next duty. -/
theorem Heading.exists_advance (heading : run.Heading)
    (empty : ∀ engine, (run.scheduler.pools.get engine).Empty) {duty : Duty} {rest : List Duty}
    (head : run.agenda = duty :: rest) : ∃ next, run.advance engines = some next := by
  rw [advance_eq head]
  cases duty with
  | join engine =>
    have closing : (run.scheduler.pools.get engine).phase = .closing := heading.closing head
    have drained : (run.scheduler.pools.get engine).isDrained = true := by
      unfold Pool.isDrained
      rw [(empty engine).1, (empty engine).2]
      rfl
    have joins : (run.scheduler.pools.get engine).join? =
        some { run.scheduler.pools.get engine with phase := .closed } :=
      if_pos ⟨closing, drained⟩
    exact ⟨_, congrArg (Option.map _) joins⟩
  | _ => exact ⟨_, rfl⟩

/-- A pool that has jobs has a worker that can do something. -/
theorem Healthy.exists_work (healthy : run.Healthy) {engine : Engine}
    (busy : ¬ (run.scheduler.pools.get engine).Empty) :
    ∃ move next, move ≠ .advance ∧ run.step engines move = some next ∧ next.load < run.load := by
  have fit := healthy.joining.fit engine
  cases running : (run.scheduler.pools.get engine).running with
  | cons ticket others =>
    have job : (run.scheduler.pools.get engine).running[0]? = some ticket := by
      rw [running]
      rfl
    obtain ⟨beside, held, _⟩ := ledger_amend job
    have exists_ := healthy.known ticket.job (held ▸ Multiset.mem_cons_self _ _)
    have goes : ∃ next, run.work engines engine 0 = some next :=
      Run.exists_work job (List.getElem?_eq_getElem exists_)
    obtain ⟨next, moved⟩ := goes
    exact ⟨.work engine 0, next, nofun, moved, lighter_work moved⟩
  | nil =>
    cases queue : (run.scheduler.pools.get engine).queue with
    | nil => exact absurd ⟨queue, running⟩ busy
    | cons ticket rest =>
      have open_ : (run.scheduler.pools.get engine).hasWorkers = true := by
        refine Pool.hasWorkers_of_phase ?_
        cases phase : (run.scheduler.pools.get engine).phase with
        | idle => exact absurd phase fit.begun
        | closed => exact absurd (fit.closed phase) busy
        | «open» => exact .inl rfl
        | closing => exact .inr rfl
      have idle : (run.scheduler.pools.get engine).hasIdleWorker = true := by
        unfold Pool.hasIdleWorker
        rw [open_, running]
        exact decide_eq_true fit.workers
      have takes : ∃ next, run.takeJob engine = some next :=
        ⟨_, congrArg (Option.map _) (Pool.take_of_ready idle queue)⟩
      obtain ⟨next, moved⟩ := takes
      exact ⟨.take engine, next, nofun, moved, lighter_take moved⟩

/-- **As long as a run is not over, there is a move that uses something up.** -/
theorem Healthy.move (healthy : run.Healthy) (going : run.isOver = false) :
    ∃ move next, run.step engines move = some next ∧ run.Descends next := by
  by_cases empty : ∀ engine, (run.scheduler.pools.get engine).Empty
  · cases agenda : run.agenda with
    | nil =>
      unfold isOver at going
      rw [agenda] at going
      cases going
    | cons duty rest =>
      have goes : ∃ next, run.advance engines = some next :=
        healthy.heading.exists_advance empty agenda
      obtain ⟨next, moved⟩ := goes
      have step : run.ledger.Step (fun _ _ _ _ => True) _ next.ledger := advance_ledger moved
      exact ⟨.advance, next, moved, .inl (step.descends healthy.sound healthy.balanced
        (jobs_of_empty empty) (fun _ _ => healthy.heading.single) (advance_turns moved))⟩
  · obtain ⟨engine, busy⟩ := not_forall.mp empty
    have goes : ∃ move next, move ≠ .advance ∧ run.step engines move = some next ∧
        next.load < run.load := healthy.exists_work busy
    obtain ⟨move, next, works, moved, lighter⟩ := goes
    exact ⟨move, next, moved, healthy.descends moved works lighter⟩

/-- **Some moves bring a run to its end.** -/
theorem Healthy.completes (engines : Engines σ) {run : Run σ} (healthy : run.Healthy) :
    ∃ moves last, run.steps engines moves = some last ∧ last.isOver = true := by
  by_cases past : run.isOver = true
  · exact ⟨[], run, rfl, past⟩
  · have goes : ∃ move next, run.step engines move = some next ∧ run.Descends next :=
      healthy.move (Bool.not_eq_true _ ▸ past)
    obtain ⟨move, next, moved, descends⟩ := goes
    obtain ⟨moves, last, later, past⟩ := (healthy.step moved).completes engines
    refine ⟨move :: moves, last, ?_, past⟩
    unfold steps
    rw [moved]
    exact later
termination_by (run.ledger.newActions, run.ledger.unrest, run.ledger.phase, run.ledger.weight,
  run.load)
decreasing_by
  simp only [Prod.lex_def]
  unfold Descends Ledger.Descends at descends
  tauto

end Run

end TableMigration
