/-
**A run comes to its end once the engines return.**

* `Run.toil` — how much the workers can still do, also for actions that are yet to be handed out.
  Whatever they do makes it less, and the scheduling thread never makes it more
  (`Run.Healthy.toil_worker`, `Run.Healthy.toil_advance`).
* `Run.Endless` — a course of moves without end in which the workers do not stand still for ever
  while there is something that they could do. At last only the scheduling thread makes moves, and
  no job is left, so that it uses something up with each of them: there is no such course
  (`Run.Endless.impossible`).
* `Run.halts` — for tasks in any state and engines that answer in any way, a run hands out each
  action that is new once at most, makes few passes, and ends.
-/

import Mathlib.Order.WellFounded
import TableMigration.Proofs.Passes
import TableMigration.Proofs.Recast
import TableMigration.Proofs.Settlement
import TableMigration.Proofs.Standstill

namespace TableMigration

/-! ### What is left for the workers -/

namespace Ledger

variable {ledger next : Ledger} {answers : Nat → Task → Action → Execution → Prop}
  {acts : List Act}

/-- How many jobs the scheduling thread may still give to the pools. -/
def offers (ledger : Ledger) : Nat :=
  ledger.agenda.countP Duty.isSubmit + ledger.newActions

/-- **A job is offered for an action that was new.** -/
theorem Step.offers_le (step : ledger.Step answers acts next) (sound : ledger.custody.Sound) :
    next.offers ≤ ledger.offers := by
  have fewer := step.newActions_le sound
  have goesOn : ∀ {duty : Duty} {rest : List Duty} (duties : List Duty),
      ledger.agenda = duty :: rest → next.agenda = duties ++ rest →
      duties.countP Duty.isSubmit = 0 → next.offers ≤ ledger.offers := by
    intro duty rest duties head after none
    unfold offers
    rw [head, after, List.countP_append, none, List.countP_cons]
    omega
  have stays : next.agenda = ledger.agenda → next.offers ≤ ledger.offers := by
    intro same
    unfold offers
    rw [same]
    omega
  cases step with
  | beginPass head =>
    refine goesOn _ head rfl (Duty.countP_of_not_handing fun duty planned => ?_).2.1
    exact Duty.not_handing_of_rank (Nat.le_of_succ_le (Duty.le_rank_pass planned))
  | collect head =>
    exact goesOn _ head rfl
      (Duty.countP_of_not_handing fun duty => Duty.not_handing_dispatches).2.1
  | @dispatch rest number action task head found =>
    have strict := newActions_dispatch sound (head ▸ List.mem_cons_self) found
    have follows := (Duty.countP_of_not_handing fun duty (planned : duty ∈ Duty.follow number
      (task.update action .running).changed (task.update action .running).deliveries) =>
        Duty.not_handing_follow planned).2.1
    unfold offers
    show List.countP _ _ + ((ledger.tasks.set number _).map Task.newActions).sum ≤ _
    rw [head]
    simp only [List.countP_append, List.countP_cons, List.countP_nil, follows, Duty.isSubmit,
      if_true, Bool.false_eq_true, if_false]
    omega
  | refuse head =>
    exact goesOn _ head rfl (Duty.countP_of_not_handing fun duty => Duty.not_handing_follow).2.1
  | testDone head =>
    exact goesOn _ head rfl (by decide)
  | testStuck head =>
    refine goesOn _ head rfl (Duty.countP_of_not_handing fun duty planned => ?_).2.1
    exact Duty.not_handing_of_rank ((Duty.rank_stuck planned).symm ▸ by decide)
  | lookOn head | testOn head | wait head => exact goesOn [_] head rfl rfl
  | turnAway head => exact goesOn [_, _] head rfl rfl
  | lookEnded head | absent head | countIn head | submit head | countOut head | judgeNothing head
  | judge head | aside head | unlisten head => exact goesOn [] head rfl rfl
  | take | execute | keepCounts | keepValidation | report | follow | complete | leave =>
    exact stays rfl

/-- What is used up without jobs comes to an end. -/
theorem wellFounded_descends : WellFounded fun next ledger : Ledger => ledger.Descends next := by
  refine Subrelation.wf (fun {next ledger} descends => ?_) (InvImage.wf
    (fun ledger : Ledger => (ledger.newActions, ledger.unrest, ledger.phase, ledger.weight))
    WellFoundedRelation.wf)
  simp only [InvImage, WellFoundedRelation.rel, Prod.lex_def]
  unfold Descends at descends
  tauto

end Ledger

namespace Run

variable {σ : Type} {engines : Engines σ} {run after next last : Run σ} {duty : Duty}
  {move : Move}

/-- How much the workers can still do. A job that is offered waits, and has all its stages before
it. -/
def toil (run : Run σ) : Nat :=
  run.load + 12 * run.ledger.offers

theorem load_of_pools (same : after.scheduler.pools = run.scheduler.pools) :
    after.load = run.load := by
  show (after.scheduler.pools.jobs.map fun job => job.stage.weight).sum + _ =
    (run.scheduler.pools.jobs.map fun job => job.stage.weight).sum + _
  rw [same]

theorem load_setPool {engine : Engine} {pool : Pool Job}
    (queue : pool.queue = (run.scheduler.pools.get engine).queue)
    (jobs : pool.jobs = (run.scheduler.pools.get engine).jobs) :
    (run.setPool engine pool).load = run.load := by
  have waiting := run.scheduler.pools.waiting_set engine pool
  rw [queue] at waiting
  have jobs : (run.setPool engine pool).ledger.jobs = run.ledger.jobs := Pools.jobs_set_of_eq jobs
  unfold load
  rw [jobs]
  exact congrArg _ (Nat.add_right_cancel waiting)

/-- A job that is accepted waits, and has all its stages before it. -/
theorem load_accepted {engine : Engine} {priority number : Nat} {action : Action}
    (accepted : (run.scheduler.pools.get engine).refusal? = none) :
    (run.setPool engine ((run.scheduler.pools.get engine).submit priority
      ⟨number, action, .call⟩).pool).load = run.load + 12 := by
  have waiting := run.scheduler.pools.waiting_set engine
    ((run.scheduler.pools.get engine).submit priority ⟨number, action, .call⟩).pool
  rw [Pool.length_submit_accepted _ _ accepted] at waiting
  obtain ⟨others, all, changed⟩ := run.scheduler.pools.jobs_set engine
  have jobs : (run.scheduler.pools.set engine ((run.scheduler.pools.get engine).submit priority
      ⟨number, action, .call⟩).pool).jobs = ⟨number, action, .call⟩ ::ₘ run.scheduler.pools.jobs := by
    rw [changed, Pool.jobs_submit_accepted _ _ accepted, Multiset.cons_add, ← all]
  show (Multiset.map _ (run.scheduler.pools.set _ _).jobs).sum +
    (run.scheduler.pools.set _ _).waiting = (run.scheduler.pools.jobs.map _).sum + _ + 12
  rw [jobs, Multiset.map_cons, Multiset.sum_cons]
  simp only [Stage.weight]
  omega

/-- Only to submit a job gives the workers more to do. -/
theorem load_perform (performed : run.perform engines duty = some next)
    (submits : ∀ number action, duty ≠ .submit number action) : next.load = run.load := by
  have aside (closes : ∀ engine, duty ≠ .close engine) (joins : ∀ engine, duty ≠ .join engine) :
      next.load = run.load := by
    have same := perform_recast run run.shell [] engines submits closes joins
    rw [show run.recast run.shell [] = run from rfl, performed] at same
    rw [Option.some.inj same]
    exact load_of_pools rfl
  cases duty with
  | submit number action => exact absurd rfl (submits number action)
  | close engine =>
    cases performed
    refine load_setPool ?_ (Pool.jobs_close _)
    unfold Pool.close
    split <;> rfl
  | join engine =>
    obtain ⟨stopped, joined, rfl⟩ := Option.map_eq_some_iff.mp performed
    have queue : stopped.queue = (run.scheduler.pools.get engine).queue := by
      obtain ⟨_, _, rfl⟩ := Pool.join_eq joined
      rfl
    exact (load_of_pools (aside_tell _ _).pools).trans
      (load_setPool queue (Pool.jobs_join joined))
  | _ => exact aside nofun nofun

/-- An offer that is taken up is as much work as the job that it becomes. -/
theorem load_submit {number : Nat} {action : Action}
    (performed : run.perform engines (.submit number action) = some next) :
    next.load ≤ run.load + 12 ∧ next.ledger.newActions = run.ledger.newActions ∧
      next.agenda.countP Duty.isSubmit = run.agenda.countP Duty.isSubmit := by
  cases performed
  split
  · exact ⟨Nat.le_add_right _ _, rfl, rfl⟩
  · dsimp only
    rw [Pool.refusal_submit]
    split
    · rename_i accepted
      exact ⟨(load_accepted accepted).le, rfl, rfl⟩
    · rename_i error refused
      have queue := Pool.queue_submit_refused action.priority (Job.mk number action .call) refused
      have same := load_setPool queue (Pool.jobs_submit_refused _ _ refused)
      exact ⟨((load_of_pools rfl).trans same).le.trans (Nat.le_add_right _ _), rfl, rfl⟩

/-- **The scheduling thread does not make the workers' toil more.** -/
theorem Healthy.toil_advance (healthy : run.Healthy) (moved : run.step engines .advance = some next) :
    next.toil ≤ run.toil := by
  have fewer := (Campaign.step_finishes moved).offers_le healthy.sound
  obtain ⟨duty, rest, agenda, performed⟩ := exists_of_advance moved
  have taken : ({ run with agenda := rest } : Run σ).load = run.load := load_of_pools rfl
  unfold toil
  by_cases submits : ∃ number action, duty = .submit number action
  · obtain ⟨number, action, rfl⟩ := submits
    obtain ⟨more, new, offers⟩ := load_submit performed
    have offered : run.ledger.offers =
        rest.countP Duty.isSubmit + 1 + run.ledger.newActions :=
      congrArg (· + _) ((congrArg _ agenda).trans (List.countP_cons_of_pos rfl))
    have left : next.ledger.offers = rest.countP Duty.isSubmit + run.ledger.newActions :=
      congrArg₂ (· + ·) offers new
    omega
  · have same := load_perform performed fun number action equal => submits ⟨number, action, equal⟩
    omega

/-- **What a worker does makes it less.** -/
theorem Healthy.toil_worker (healthy : run.Healthy) (moved : run.step engines move = some next)
    (works : move ≠ .advance) : next.toil < run.toil := by
  have lighter : next.load < run.load := by
    cases move with
    | advance => exact absurd rfl works
    | take engine => exact lighter_take moved
    | work engine place => exact lighter_work moved
  have fewer := (Campaign.step_finishes moved).offers_le healthy.sound
  unfold toil
  omega

/-! ### Courses without end -/

/-- Whether a worker can go on with a job, or take one. -/
def CanWork (engines : Engines σ) (run : Run σ) : Prop :=
  ∃ move next, move ≠ .advance ∧ run.step engines move = some next

/-- A course of moves without end. The workers do not stand still for ever while there is something
that they could do, as every engine returns at last. -/
structure Endless (engines : Engines σ) (run : Run σ) (course : Nat → Run σ)
    (moves : Nat → Move) : Prop where
  begins : course 0 = run
  goes : ∀ time, (course time).step engines (moves time) = some (course (time + 1))
  fair : ∀ time, (∀ later, time ≤ later → (course later).CanWork engines) →
    ∃ later, time ≤ later ∧ moves later ≠ .advance

namespace Endless

variable {course : Nat → Run σ} {moves : Nat → Move}

theorem healthy (endless : Endless engines run course moves) (healthy : run.Healthy) (time : Nat) :
    (course time).Healthy := by
  induction time with
  | zero => exact endless.begins ▸ healthy
  | succ time hyp => exact hyp.step (endless.goes time)

/-- At last only the scheduling thread makes moves. -/
theorem idles (endless : Endless engines run course moves) (healthy : run.Healthy) :
    ∃ start, ∀ time, start ≤ time → moves time = .advance := by
  let toil := fun time => (course time).toil
  have fewer : Antitone toil := antitone_nat_of_succ_le fun time => by
    have healthy := endless.healthy healthy time
    by_cases works : moves time = .advance
    · exact healthy.toil_advance (works ▸ endless.goes time)
    · exact (healthy.toil_worker (endless.goes time) works).le
  -- no worker does anything any more once there is as little to do as there will ever be
  refine ⟨Function.argmin toil, fun time after => by_contra fun works => ?_⟩
  have less : toil (time + 1) < toil time :=
    (endless.healthy healthy time).toil_worker (endless.goes time) works
  have least : toil (Function.argmin toil) ≤ toil (time + 1) := Function.argmin_le toil (time + 1)
  exact Nat.not_le_of_lt (less.trans_le (fewer after)) least

/-- From then on no job is left. -/
theorem drained (endless : Endless engines run course moves) (healthy : run.Healthy) {start : Nat}
    (idle : ∀ time, start ≤ time → moves time = .advance) {time : Nat} (behind : start ≤ time) :
    (course time).ledger.jobs = 0 := by
  by_contra left
  obtain ⟨job, held⟩ := Multiset.exists_mem_of_ne_zero left
  have stays : ∀ later, time ≤ later → job ∈ (course later).ledger.jobs := by
    intro later after
    induction later, after using Nat.le_induction with
    | base => exact held
    | succ later after hyp =>
      have moved : (course later).step engines .advance = some (course (later + 1)) :=
        idle later (behind.trans after) ▸ endless.goes later
      rcases (Campaign.step_finishes moved).jobs_or_agenda with kept | same
      · exact kept job hyp
      · exact absurd same (advance_turns moved)
  obtain ⟨later, after, works⟩ := endless.fair time fun later after => by
    have busy : ¬ ∀ engine, ((course later).scheduler.pools.get engine).Empty := by
      intro empty
      have gone := stays later after
      rw [show (course later).ledger.jobs = 0 from jobs_of_empty empty] at gone
      exact absurd gone (Multiset.notMem_zero job)
    obtain ⟨engine, busy⟩ := not_forall.mp busy
    obtain ⟨move, next, works, moved, _⟩ := (endless.healthy healthy later).exists_work busy
    exact ⟨move, next, works, moved⟩
  exact works (idle later (behind.trans after))

/-- **A run does not go on for ever.** -/
theorem impossible (endless : Endless engines run course moves) (healthy : run.Healthy) : False := by
  obtain ⟨start, idle⟩ := endless.idles healthy
  have : IsWellFounded Ledger fun next ledger => ledger.Descends next :=
    ⟨Ledger.wellFounded_descends⟩
  obtain ⟨time, stops⟩ : ∃ time, ¬ (course (start + time)).ledger.Descends
      (course (start + (time + 1))).ledger :=
    WellFounded.not_rel_apply_succ (r := fun next ledger : Ledger => ledger.Descends next)
      fun time => (course (start + time)).ledger
  have there := endless.healthy healthy (start + time)
  have moved : (course (start + time)).step engines .advance =
      some (course (start + (time + 1))) :=
    idle (start + time) (Nat.le_add_right _ _) ▸ endless.goes (start + time)
  refine stops ((Campaign.step_finishes moved).descends there.sound there.balanced ?_
    (fun _ _ => there.heading.single) (advance_turns moved))
  exact endless.drained healthy idle (Nat.le_add_right _ _)

end Endless

/-! ### From the beginning to the end -/

/-- Nobody has begun an action of the tasks when a run begins. -/
theorem newIn_begins {scheduler : Scheduler} {tasks : List Task} {listed : List Nat} {state : σ}
    (begins : scheduler.Begins tasks listed state run) (numbers : List Nat) :
    run.ledger.custody.newIn numbers =
      ((Task.entries tasks numbers).map Task.newActions).sum := by
  rw [Campaign.custody_begins begins]
  induction numbers with
  | nil => rfl
  | cons number rest hyp =>
    unfold Custody.newIn Custody.newOf Task.entries at hyp ⊢
    rw [List.map_cons, List.sum_cons, hyp, List.filterMap_cons]
    cases found : tasks[number]? with
    | none => simp only [found, Option.map_none, Option.getD_none, Nat.zero_add]
    | some task =>
      simp only [found, Option.map_some, Option.getD_some, List.map_cons, List.sum_cons]
      rfl

/-- How a run goes in which as many actions as this are new. -/
structure Halts (engines : Engines σ) (run : Run σ) (new : Nat) : Prop where
  /-- No action is handed out twice, and no more of them than are new. -/
  few : ∀ moves last, run.steps engines moves = some last →
    (Act.handed (run.trace engines moves)).Nodup ∧
      (Act.handed (run.trace engines moves)).length ≤ new
  /-- What is handed out was new, and is never new again. -/
  spends : ∀ moves now move next number action, run.steps engines moves = some now →
    now.step engines move = some next → .dispatched number action ∈ now.acts engines move →
    (∃ task, now.tasks[number]? = some task ∧ task.actionProgress action = some .new) ∧
      ∀ later last, next.steps engines later = some last →
        ∀ task, last.tasks[number]? = some task → task.actionProgress action ≠ some .new
  /-- A pass that begins with nothing in flight hands out an action, or it is the last one. -/
  pass : ∀ moves now move next later last, run.steps engines moves = some now →
    now.passBegun? move = some 0 → now.step engines move = some next →
    next.steps engines later = some last →
    last.agenda.head? = some .wait ∨ last.agenda.head? = some .beginPass →
    ∃ number action, .dispatched number action ∈ next.trace engines later
  /-- So there are few such passes, and few passes at all if all of them begin so. -/
  passes : ∀ moves last, run.steps engines moves = some last →
    (run.passes engines moves).count 0 ≤ new + 1 ∧
      ((∀ flying ∈ run.passes engines moves, flying = 0) →
        (run.passes engines moves).length ≤ new + 1)
  /-- As long as the run is not over, somebody can make a move. -/
  going : ∀ moves last, run.steps engines moves = some last → last.isOver = false →
    ∃ move next, last.step engines move = some next
  ends : ∀ course moves, ¬ Endless engines run course moves

/-- A pass that waits for another one, or begins it, has handed out an action if it began with
nothing in flight. -/
theorem Healthy.hands_out {moves : List Move} (healthy : run.Healthy)
    (begun : run.passBegun? move = some 0) (moved : run.step engines move = some next)
    (reached : next.steps engines moves = some last)
    (again : last.agenda.head? = some .wait ∨ last.agenda.head? = some .beginPass) :
    ∃ number action, .dispatched number action ∈ next.trace engines moves := by
  cases hands : Act.handed (next.trace engines moves) with
  | nil =>
    obtain ⟨_, tested⟩ :=
      (healthy.step moved).spent_steps (healthy.spent_of_begun begun moved) reached hands
    have never : ∀ duty : Duty, last.agenda.head? = some duty → duty.rank = 3 → duty = .test :=
      fun duty head => tested duty (List.mem_of_mem_head? head)
    rcases again with waits | begins
    · cases never _ waits rfl
    · cases never _ begins rfl
  | cons key others =>
    exact ⟨key.1, key.2, Act.dispatched_of_handed (hands ▸ List.mem_cons_self)⟩

/-- **A run halts**, whatever its tasks are and whatever the engines answer. -/
theorem halts {scheduler : Scheduler} {tasks : List Task} {listed : List Nat} {state : σ}
    (resting : scheduler.AtRest)
    (launched : scheduler.launch tasks listed state = .started run) (engines : Engines σ) :
    run.Halts engines ((Task.entries tasks listed.dedup).map Task.newActions).sum := by
  have begins := resting.begins launched
  have healthy : ∀ {moves last}, run.steps engines moves = some last → last.Healthy :=
    steps_induction (fun healthy moved => healthy.step moved) begins.healthy
  have few : ∀ moves last, run.steps engines moves = some last →
      (Act.handed (run.trace engines moves)).length ≤
        ((Task.entries tasks listed.dedup).map Task.newActions).sum := by
    intro moves last reached
    have paid := begins.faithful.handed_le reached
    rw [newIn_begins begins] at paid
    omega
  have passes : ∀ moves last, run.steps engines moves = some last →
      (run.passes engines moves).count 0 ≤
        ((Task.entries tasks listed.dedup).map Task.newActions).sum + 1 := by
    intro moves last reached
    exact (begins.healthy.passes_le reached).1.trans (Nat.succ_le_succ (few moves last reached))
  exact {
    few := fun moves last reached =>
      ⟨Act.handed_nodup ((counting_begins begins).steps reached).tells, few moves last reached⟩
    spends := fun moves now move next number action reached => (healthy reached).spends
    pass := fun moves now move next later last reached => (healthy reached).hands_out
    passes := fun moves last reached => by
      refine ⟨passes moves last reached, fun landed => ?_⟩
      rw [← List.count_eq_length.mpr fun flying member => (landed flying member).symm]
      exact passes moves last reached
    going := fun moves last reached going => by
      obtain ⟨move, next, moved, _⟩ := (healthy reached).move going
      exact ⟨move, next, moved⟩
    ends := fun course moves endless => endless.impossible begins.healthy }

/-- A task with an action that is running when the run begins, so that nobody will report on it. -/
def begunTask : Task :=
  (((Task.create "s" ⟨"d", "s", [], []⟩ ⟨none⟩ none .succeeded).addActions [.createTable]).update
    .createTable .running).task

/-- The moves of a run of the small task and the one that has begun, which is listed twice. -/
def stuckMoves : List Move :=
  List.replicate 12 .advance ++ jobMoves .destination ++ List.replicate 14 .advance ++
    jobMoves .destination ++ List.replicate 19 .advance

/-- The run of these tasks makes one pass more than there are new actions, and gives one table up. -/
theorem halts_stuck : ∃ run last,
    smallScheduler.launch [smallTask, begunTask] [0, 1, 1] () = .started run ∧
    run.steps (Campaign.easyEngines 0) stuckMoves = some last ∧ last.isOver = true ∧
    last.report.unfinished = ["d.s"] ∧ run.passes (Campaign.easyEngines 0) stuckMoves = [0, 0, 0] ∧
    Act.handed (run.trace (Campaign.easyEngines 0) stuckMoves) = [(0, .createTable), (0, .load)] ∧
    run.Halts (Campaign.easyEngines 0) 2 := by
  have goes : (smallScheduler.launch [smallTask, begunTask] [0, 1, 1] ()).leads
      (Campaign.easyEngines 0) stuckMoves (fun run last => last.isOver ∧
        last.report.unfinished = ["d.s"] ∧
        run.passes (Campaign.easyEngines 0) stuckMoves = [0, 0, 0] ∧
        Act.handed (run.trace (Campaign.easyEngines 0) stuckMoves) =
          [(0, .createTable), (0, .load)]) = true := by decide +kernel
  have new : ((Task.entries [smallTask, begunTask] [0, 1, 1].dedup).map Task.newActions).sum = 2 := by
    decide +kernel
  obtain ⟨run, last, launched, reached, ends⟩ := Launch.of_leads goes
  obtain ⟨past, unfinished, passes, handed⟩ := of_decide_eq_true ends
  have halts := halts (Scheduler.atRest_create none true true true _) launched
    (Campaign.easyEngines 0)
  rw [new] at halts
  exact ⟨run, last, launched, reached, past, unfinished, passes, handed, halts⟩

end Run

end TableMigration
