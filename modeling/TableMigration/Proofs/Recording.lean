/-
**A final verification records every partition once.**

* `Run.verificationCalls` — the calls on stores that are seen while workers go on with the final
  verification of a task.
* `Ledger.Dealt` — what was written for it and what is due are the whole; `Run.verifying_step` says
  what a move may do with it, and every move keeps to the whole (`Run.Checked.dealt_step`).
* `Run.records_division` — so a final verification that is over has recorded every partition of its
  task once, whatever the stores made of it.
-/

import TableMigration.Proofs.Division

namespace TableMigration

/-! ### The jobs of a final verification -/

namespace Job

variable {number : Nat} {job : Job} {others : Multiset Job}

/-- Whether a job runs the final verification of a task. -/
def verifies (number : Nat) (job : Job) : Bool :=
  decide (job.task = number ∧ job.action = .finalVerification)

/-- The jobs that run the final verification of a task. -/
def verifications (number : Nat) (jobs : Multiset Job) : Multiset Job :=
  jobs.filter fun job => job.verifies number = true

theorem verifications_cons_self (number : Nat) (stage : Stage) (others : Multiset Job) :
    verifications number (⟨number, .finalVerification, stage⟩ ::ₘ others) =
      ⟨number, .finalVerification, stage⟩ ::ₘ verifications number others :=
  Multiset.filter_cons_of_pos _ (decide_eq_true ⟨rfl, rfl⟩)

theorem verifications_cons_of_ne (apart : ¬ (job.task = number ∧ job.action = .finalVerification)) :
    verifications number (job ::ₘ others) = verifications number others :=
  Multiset.filter_cons_of_neg _ fun mine => apart (of_decide_eq_true mine)

end Job

namespace Ledger

variable {ledger next : Ledger} {acts new : List Act} {number : Nat} {task after : Task}
  {store : StoreRef} {written : List (Recorder × StoreRef × Write)}
  {answers : Nat → Task → Action → Execution → Prop}

/-- How far the final verification of a task has come with what it writes. -/
inductive Dealt (ledger : Ledger) (acts : List Act) (number : Nat) (task : Task) (store : StoreRef)
    (written : List (Recorder × StoreRef × Write)) : Prop
  /-- No pool has accepted it yet. -/
  | unasked (idle : Job.verifications number ledger.jobs = 0)
      (never : ∀ execution, .executed number .finalVerification execution ∉ acts)
      (nothing : written = [])
  /-- It has a job, and what was written and what is due are the whole. -/
  | underway (stage : Stage)
      (one : Job.verifications number ledger.jobs = {⟨number, .finalVerification, stage⟩})
      (told : stage ≠ .call → ∃ execution, .executed number .finalVerification execution ∈ acts)
      (whole : written ++ task.due store stage = task.divisionWrites store)
  /-- Its job is over, and the whole was written. -/
  | ended (idle : Job.verifications number ledger.jobs = 0)
      (told : ∃ execution, .executed number .finalVerification execution ∈ acts)
      (whole : written = task.divisionWrites store)

theorem job_of_verifications {job : Job} {others : Multiset Job}
    (one : Job.verifications number ledger.jobs = job ::ₘ others) :
    job ∈ ledger.jobs :=
  Multiset.mem_of_mem_filter (one ▸ Multiset.mem_cons_self job others)

/-- While it waits, runs or is about to report, the final verification is on its way. -/
theorem item_of_verifications {job : Job} {item : Item} {others : Multiset Job}
    (one : Job.verifications number ledger.jobs = job ::ₘ others) (brings : job.item? = some item) :
    item ∈ ledger.custody.items :=
  mem_items.mpr (.inr ⟨job, job_of_verifications one, brings⟩)

/-- What is offered to a pool has no job yet, and was not executed. -/
theorem Dealt.unasked_of_offered (dealt : ledger.Dealt acts number task store written)
    (sound : ledger.custody.Sound) (tells : ledger.custody.Tells acts)
    (offered : ⟨number, .finalVerification, .offered⟩ ∈ ledger.custody.items) :
    Job.verifications number ledger.jobs = 0 ∧ written = [] := by
  obtain ⟨_, story, fits, _⟩ := tells number .finalVerification
  have told := story.of_out (fits _ offered) (.inl rfl)
  have never : ¬ ∃ execution, .executed number .finalVerification execution ∈ acts := by
    rintro ⟨execution, executed⟩
    have about := story.about_of_executed executed
    rw [told] at about
    cases about
  cases dealt with
  | unasked idle _ nothing => exact ⟨idle, nothing⟩
  | underway stage one told' =>
    by_cases calls : stage = .call
    · subst calls
      have queued := item_of_verifications one rfl
      cases sound.unique offered queued rfl
    · exact absurd (told' calls) never
  | ended _ told' => exact absurd told' never

/-- Where it has a job, this is the only one. -/
theorem Dealt.of_held {stage : Stage} {others : Multiset Job}
    (dealt : ledger.Dealt acts number task store written)
    (held : Job.verifications number ledger.jobs =
      ⟨number, .finalVerification, stage⟩ ::ₘ others) :
    others = 0 ∧
      (stage ≠ .call → ∃ execution, .executed number .finalVerification execution ∈ acts) ∧
      written ++ task.due store stage = task.divisionWrites store := by
  cases dealt with
  | unasked idle | ended idle => exact absurd (held.symm.trans idle) Multiset.cons_ne_zero
  | underway stage' one told whole =>
    obtain ⟨same, alone⟩ := (Multiset.singleton_eq_cons_iff _).mp (one.symm.trans held)
    cases same
    exact ⟨alone, told, whole⟩

/-- Where it has a job, all below has succeeded. -/
theorem Dealt.cleared {stage : Stage} {others : Multiset Job}
    (dealt : ledger.Dealt acts number task store written) (sound : ledger.custody.Sound)
    (tells : ledger.custody.Tells acts) (found : ledger.custody.tasks number = some task.deaf)
    (held : Job.verifications number ledger.jobs =
      ⟨number, .finalVerification, stage⟩ ::ₘ others) : task.Cleared .finalVerification := by
  by_cases calls : stage = .call
  · subst calls
    obtain ⟨task', found', _, cleared⟩ := sound.placed _ (item_of_verifications held rfl)
    cases found.symm.trans found'
    exact cleared
  · obtain ⟨execution, executed⟩ := (dealt.of_held held).2.1 calls
    have cleared : task.deaf.Cleared .finalVerification :=
      tells.cleared_of_executed found executed
    exact cleared

/-- A step that has nothing to do with it leaves it as it is. -/
theorem Dealt.aside (dealt : ledger.Dealt acts number task store written)
    (sound : ledger.custody.Sound) (tells : ledger.custody.Tells acts)
    (found : ledger.custody.tasks number = some task.deaf)
    (alike : task.Cleared .finalVerification → ∀ stage,
      after.due store stage = task.due store stage)
    (same : Job.verifications number next.jobs = Job.verifications number ledger.jobs)
    (never : ∀ execution, .executed number .finalVerification execution ∉ new) :
    next.Dealt (acts ++ new) number after store written := by
  cases dealt with
  | unasked idle before nothing =>
    refine .unasked (same.trans idle) (fun execution member => ?_) nothing
    exact (List.mem_append.mp member).elim (before execution) (never execution)
  | underway stage one told whole =>
    have due := alike ((Dealt.underway stage one told whole).cleared sound tells found one)
    refine .underway stage (same.trans one) (fun calls => ?_) ?_
    · obtain ⟨execution, executed⟩ := told calls
      exact ⟨execution, List.mem_append_left _ executed⟩
    · rw [due, whole]
      exact (due .call).symm
  | ended idle told whole =>
    obtain ⟨execution, executed⟩ := told
    have cleared : task.deaf.Cleared .finalVerification :=
      tells.cleared_of_executed found executed
    have due := alike cleared
    exact .ended (same.trans idle) ⟨execution, List.mem_append_left _ executed⟩
      (whole.trans (due .call).symm)

/-- Once it was executed and has no job any more, the final verification has gone its way. -/
theorem gone_of_executed {execution : Execution} (tells : ledger.custody.Tells acts)
    (executed : .executed number .finalVerification execution ∈ acts)
    (idle : Job.verifications number ledger.jobs = 0) :
    ∀ item ∈ ledger.custody.items, item.key ≠ (number, .finalVerification) := by
  intro item member same
  obtain ⟨other, action, station⟩ := item
  obtain ⟨rfl, rfl⟩ : other = number ∧ action = .finalVerification := Prod.ext_iff.mp same
  obtain ⟨_, story, fits, _⟩ := tells other .finalVerification
  have fits := fits station member
  have told := story.about_of_executed executed
  rcases mem_items.mp member with ⟨duty, _, brings⟩ | ⟨job, held, brings⟩
  · -- what the scheduling thread has on its agenda was not executed yet
    cases duty <;> cases brings
    · exact absurd (told.symm.trans (story.of_due fits)) nofun
    · exact absurd (told.symm.trans (story.of_out fits (.inl rfl))) nofun
    · exact absurd (told.symm.trans (story.of_refused fits)) nofun
  · have mine : job.task = other ∧ job.action = .finalVerification := by
      obtain ⟨_, _, stage⟩ := job
      cases stage <;> cases brings <;> exact ⟨rfl, rfl⟩
    have among : job ∈ Job.verifications other ledger.jobs :=
      Multiset.mem_filter.mpr ⟨held, decide_eq_true mine⟩
    rw [idle] at among
    exact Multiset.notMem_zero _ among

/-- The scheduling thread hands one job over to a pool at most. -/
theorem Step.jobs_of_turns (step : ledger.Step answers new next)
    (turns : next.agenda ≠ ledger.agenda) : next.jobs = ledger.jobs ∨
      ∃ number action, .submit number action ∈ ledger.agenda ∧
        next.jobs = ⟨number, action, .call⟩ ::ₘ ledger.jobs := by
  cases step with
  | submit head => exact .inr ⟨_, _, head ▸ List.mem_cons_self, rfl⟩
  | take | execute | keepCounts | keepValidation | report | follow | complete | leave =>
    exact absurd rfl turns
  | _ => exact .inl rfl

end Ledger

/-! ### What a move does with a final verification -/

namespace Run

variable {σ : Type} {engines : Engines σ} {run next last origin : Run σ} {tasks : List Task}
  {listed : List Nat} {acts : List Act} {store : StoreRef} {number : Nat} {task after : Task}
  {written : List (Recorder × StoreRef × Write)} {move : Move}

/-- The stage of the final verification of a task, if a worker goes on with it. -/
def verifying? (run : Run σ) (number : Nat) : Move → Option Stage
  | .work engine place =>
    ((run.scheduler.pools.get engine).running[place]?).bind fun ticket =>
      if ticket.job.verifies number then some ticket.job.stage else none
  | .advance | .take _ => none

/-- Calls of a move, if it goes on with the final verification of a task. -/
def marked (run : Run σ) (number : Nat) (move : Move) (calls : List (StoreRef × Write)) :
    List (Recorder × StoreRef × Write) :=
  match run.verifying? number move with
  | none => []
  | some stage => calls.map (Prod.mk stage.recorder)

/-- The calls that are seen while workers go on with the final verification of a task, in the course
of some moves. -/
def verificationCalls (engines : Engines σ) (run : Run σ) (number : Nat) :
    List Move → List (Recorder × StoreRef × Write)
  | [] => []
  | move :: rest =>
    match run.step engines move with
    | none => []
    | some next =>
      run.marked number move (Event.writes (next.events.drop run.events.length)) ++
        next.verificationCalls engines number rest

/-- What a move may do with the final verification of a task. -/
inductive Verifying (engines : Engines σ) (run : Run σ) (number : Nat) (move : Move)
    (next : Run σ) : Prop
  /-- Nothing. -/
  | aside (elsewhere : run.verifying? number move = none)
      (same : Job.verifications number next.ledger.jobs = Job.verifications number run.ledger.jobs)
      (never : ∀ execution,
        .executed number .finalVerification execution ∉ run.acts engines move)
  /-- A pool accepts it. -/
  | accepted (elsewhere : run.verifying? number move = none)
      (offered : ⟨number, .finalVerification, .offered⟩ ∈ run.ledger.custody.items)
      (more : Job.verifications number next.ledger.jobs =
        ⟨number, .finalVerification, .call⟩ ::ₘ Job.verifications number run.ledger.jobs)
  /-- A worker goes on to the next stage. -/
  | worked (task : Task) (stage later : Stage) (others : Multiset Job) (after : Run σ)
      (mine : run.verifying? number move = some stage) (found : run.tasks[number]? = some task)
      (held : Job.verifications number run.ledger.jobs =
        ⟨number, .finalVerification, stage⟩ ::ₘ others)
      (does : Does engines run number task .finalVerification stage after later)
      (goesOn : Job.verifications number next.ledger.jobs =
        ⟨number, .finalVerification, later⟩ ::ₘ others)
      (told : stage = .call → ∃ execution,
        .executed number .finalVerification execution ∈ run.acts engines move)
      (writes : run.writes move = run.stageWrites task .finalVerification stage)
  /-- A worker is done with it. -/
  | left (execution : Execution) (others : Multiset Job)
      (mine : run.verifying? number move = some (.leave execution))
      (held : Job.verifications number run.ledger.jobs =
        ⟨number, .finalVerification, .leave execution⟩ ::ₘ others)
      (gone : Job.verifications number next.ledger.jobs = others) (writes : run.writes move = [])

/-- The scheduling thread can only have it accepted. -/
theorem verifying_advance (moved : run.step engines .advance = some next) (number : Nat) :
    Verifying engines run number .advance next := by
  have never : ∀ execution,
      .executed number .finalVerification execution ∉ run.acts engines .advance :=
    fun execution member => executes_advance moved member (decide_eq_true ⟨rfl, rfl⟩)
  rcases (Campaign.step_finishes moved).jobs_of_turns (advance_turns moved) with
    same | ⟨other, action, planned, more⟩
  · exact .aside rfl (congrArg _ same) never
  · by_cases mine : other = number ∧ action = .finalVerification
    · obtain ⟨rfl, rfl⟩ := mine
      refine .accepted rfl (Ledger.mem_items.mpr (.inl ⟨_, planned, rfl⟩)) ?_
      rw [more, Job.verifications_cons_self]
    · refine .aside rfl ?_ never
      rw [more, Job.verifications_cons_of_ne mine]

/-- A worker goes on with it, or with something else. -/
theorem verifying_work {engine : Engine} {place : Nat}
    (moved : run.step engines (.work engine place) = some next) (number : Nat) :
    Verifying engines run number (.work engine place) next := by
  obtain ⟨ticket, worker, others, worked, found, jobs, goes⟩ := jobs_work moved
  have acts : run.acts engines (.work engine place) = _ := acts_work worked found
  have mine : run.verifying? number (.work engine place) =
      if ticket.job.verifies number then some ticket.job.stage else none := by
    simp only [verifying?, worked, Option.bind_some]
  have writes : run.writes (.work engine place) =
      run.stageWrites worker ticket.job.action ticket.job.stage := by
    simp only [Run.writes, worked, found, Option.toList_some, List.flatMap_singleton]
  obtain ⟨_, _, ⟨other, action, stage⟩⟩ := ticket
  dsimp only at found jobs goes acts mine writes
  by_cases verifies : other = number ∧ action = .finalVerification
  · rw [Job.verifies, decide_eq_true verifies, if_pos rfl] at mine
    obtain ⟨rfl, rfl⟩ := verifies
    have held := congrArg (Job.verifications other) jobs
    rw [Job.verifications_cons_self] at held
    rcases goes with ⟨after, later, does, ledger⟩ | ⟨execution, rfl, ledger⟩
    · refine .worked worker stage later _ after mine found held does ?_ (fun calls => ?_) writes
      · rw [ledger, Job.verifications_cons_self]
      · rw [acts, if_pos calls]
        exact ⟨_, List.mem_singleton_self _⟩
    · refine .left execution _ mine held ?_ writes
      rw [ledger]
  · rw [Job.verifies, decide_eq_false verifies, if_neg Bool.false_ne_true] at mine
    refine .aside mine ?_ fun execution member => ?_
    · rw [jobs, Job.verifications_cons_of_ne verifies]
      rcases goes with ⟨after, later, _, ledger⟩ | ⟨_, _, ledger⟩
      · rw [ledger, Job.verifications_cons_of_ne verifies]
      · rw [ledger]
    · rw [acts] at member
      split at member
      · cases List.mem_singleton.mp member
        exact verifies ⟨rfl, rfl⟩
      · cases member

/-- **That is all that a move may do with it.** -/
theorem verifying_step (moved : run.step engines move = some next) (number : Nat) :
    Verifying engines run number move next := by
  cases move with
  | advance => exact verifying_advance moved number
  | take engine =>
    have same : next.ledger = run.ledger := take_ledger moved
    exact .aside rfl (by rw [same]) fun _ => List.not_mem_nil
  | work engine place => exact verifying_work moved number

/-- What a worker does with it makes the next of the writes that are due. -/
theorem Does.due {stage later : Stage} {after : Run σ}
    (does : Does engines run number task .finalVerification stage after later)
    (itself : run.scheduler.verifiesItself = true) (known : run.scheduler.store = some store)
    (calls : ∀ execution, stage = .report execution →
      (task.update .finalVerification execution.progress).deliveries.flatMap task.writesOf =
        task.matchWrites store) :
    (run.stageWrites task .finalVerification stage).map (Prod.mk stage.recorder) ++
      task.due store later = task.due store stage := by
  cases does with
  | call =>
    have first : run.stageWrites task .finalVerification .call =
        task.mismatchWrites (some store) := by
      rw [← known]
      exact if_pos ⟨rfl, itself⟩
    rw [first]
    rfl
  | report execution => exact congrArg (List.map (Prod.mk Recorder.task)) (calls execution rfl)
  | deliver execution changed delivery rest =>
    have made : (delivery :: rest).flatMap task.writesOf =
        task.writesOf delivery ++ rest.flatMap task.writesOf := List.flatMap_cons
    show _ = ((delivery :: rest).flatMap task.writesOf).map (Prod.mk Recorder.task)
    rw [made, List.map_append]
    rfl
  | keepCounts | keepValidation | delivered | announce | countOut => rfl

/-! ### A run that verifies itself -/

/-- What holds of a run of honest tasks by a scheduler that verifies itself and has a store. -/
structure Checked (run : Run σ) (origin : Run σ) (tasks : List Task) (listed : List Nat)
    (acts : List Act) (store : StoreRef) : Prop where
  faithful : run.Faithful tasks listed acts
  custody : Custody.Checked origin.ledger.custody acts run.ledger.custody
  itself : run.scheduler.verifiesItself = true
  known : run.scheduler.store = some store

/-- **A move keeps to it.** -/
theorem Checked.step (checked : run.Checked origin tasks listed acts store)
    (moved : run.step engines move = some next) :
    next.Checked origin tasks listed (acts ++ run.acts engines move) store := by
  have goes := step_verified checked.faithful.healthy.orderly checked.itself moved
  exact {
    faithful := checked.faithful.step moved
    custody := checked.custody.step goes
    itself := (step_frame moved).verifies.trans checked.itself
    known := (step_frame moved).store.trans checked.known }

/-- A run of such tasks begins so. -/
theorem checked_begins {scheduler : Scheduler} {state : σ}
    (begins : scheduler.Begins tasks listed state run) (known : scheduler.store = some store)
    (itself : scheduler.verifiesItself = true) (made : ∀ task ∈ tasks, task.Made) :
    run.Checked run tasks listed [] store where
  faithful := begins.faithful
  custody := by
    have kept : ∀ task ∈ tasks, task.WellKept := fun task member => (made task member).sound.1
    refine ⟨(begins.resting kept).since fun number task found => ?_, fun _ _ _ executed => ?_,
      fun _ _ _ _ executed => ?_⟩
    · rw [Campaign.custody_begins begins] at found
      obtain ⟨heard, present, rfl⟩ := Option.map_eq_some_iff.mp found
      intro going
      obtain ⟨failed, succeeded⟩ := (made heard (List.mem_of_getElem? present)).sound.2 going
      exact ⟨failed, succeeded⟩
    · cases executed
    · cases executed
  itself := begins.verifies.trans itself
  known := begins.store.trans known

section Checked

variable (checked : run.Checked origin tasks listed acts store)
  (found : run.tasks[number]? = some task) (partitioned : task.table.isPartitioned = true)
  (shared : task.store = some store)

include checked found partitioned shared

/-- **The report of a final verification calls for the write on what agrees.** -/
theorem Checked.calls {execution : Execution} {others : Multiset Job}
    (held : Job.verifications number run.ledger.jobs =
      ⟨number, .finalVerification, .report execution⟩ ::ₘ others) :
    (task.update .finalVerification execution.progress).deliveries.flatMap task.writesOf =
      task.matchWrites store := by
  have custody := checked.custody
  have since := custody.since
  have healthy := checked.faithful.healthy
  have known : run.ledger.custody.tasks number = some task.deaf := custody_of_found found
  have reporting := Ledger.item_of_verifications held rfl
  obtain ⟨_, story, fits, _⟩ := since.coherent.tells number .finalVerification
  have told := story.of_execution (fits _ reporting) rfl
  have executed : .executed number .finalVerification execution ∈ acts :=
    (Act.mem_about.mp (told ▸ List.mem_cons_of_mem _ List.mem_cons_self)).1
  obtain ⟨task', known', running, cleared⟩ := since.coherent.sound.placed _ reporting
  cases known.symm.trans known'
  have judged : task.deaf.Judged :=
    since.judged_of_going (Custody.not_ended_of_open (since.items _ reporting)) known
  have heard : task.listener = some .scheduler :=
    checked.faithful.heeded.heard healthy.idle
      (.inr ⟨_, Ledger.job_of_verifications held, rfl⟩) found
  have kept : task.deaf.validation = some task.deaf.validatePartitions :=
    custody.kept known executed partitioned reporting
  have verdict : execution = Task.verdict task.deaf.validatePartitions :=
    custody.verdict known executed partitioned
  rw [verdict]
  exact Task.deliveries_verdict ⟨judged.failed, judged.succeeded⟩ running cleared heard kept
    partitioned shared

omit partitioned shared in
/-- Once all below has succeeded, what is due by a stage stays as it is. -/
theorem Checked.due_step (moved : run.step engines move = some next)
    (found' : next.tasks[number]? = some after) (cleared : task.Cleared .finalVerification)
    (stage : Stage) : after.due store stage = task.due store stage := by
  have healthy := checked.faithful.healthy
  obtain ⟨kind, division⟩ :=
    division_step healthy.sound (healthy.goes moved) found found' cleared
  have due : after.deaf.due store stage = task.deaf.due store stage :=
    Task.due_congr kind division stage
  exact due

/-- **What was written and what is due stay the whole**, whatever the move. -/
theorem Checked.dealt_step (moved : run.step engines move = some next)
    (found' : next.tasks[number]? = some after)
    (dealt : run.ledger.Dealt acts number task store written) :
    next.ledger.Dealt (acts ++ run.acts engines move) number after store
      (written ++ run.marked number move (run.writes move)) := by
  have sound := checked.faithful.healthy.sound
  have tells := checked.custody.since.coherent.tells
  have known : run.ledger.custody.tasks number = some task.deaf := custody_of_found found
  have alike := checked.due_step found moved found'
  unfold marked
  cases verifying_step moved number with
  | aside elsewhere same never =>
    rw [elsewhere]
    dsimp only
    rw [List.append_nil]
    exact dealt.aside sound tells known alike same never
  | accepted elsewhere offered more =>
    obtain ⟨away, nothing⟩ := dealt.unasked_of_offered sound tells offered
    rw [elsewhere, nothing]
    rw [away] at more
    exact .underway .call more (fun calls => absurd rfl calls) rfl
  | worked task' stage later others between mine there held does goesOn told writes =>
    cases found.symm.trans there
    have due := alike (dealt.cleared sound tells known held)
    obtain ⟨alone, told', whole⟩ := dealt.of_held held
    rw [alone] at goesOn
    have made := does.due checked.itself checked.known fun execution calls =>
      checked.calls found partitioned shared (calls ▸ held)
    rw [mine, writes]
    refine .underway later goesOn (fun _ => ?_) ?_
    · by_cases calls : stage = .call
      · obtain ⟨execution, executed⟩ := told calls
        exact ⟨execution, List.mem_append_right _ executed⟩
      · obtain ⟨execution, executed⟩ := told' calls
        exact ⟨execution, List.mem_append_left _ executed⟩
    · rw [due, List.append_assoc, made, whole]
      exact (due .call).symm
  | left execution others mine held gone writes =>
    have due := alike (dealt.cleared sound tells known held)
    obtain ⟨alone, told, whole⟩ := dealt.of_held held
    obtain ⟨execution', executed⟩ := told nofun
    rw [mine, writes]
    exact .ended (gone.trans alone) ⟨execution', List.mem_append_left _ executed⟩
      (whole.trans (due .call).symm)

end Checked

/-- **So it is all along.** The calls that are seen are the writes that were made. -/
theorem Checked.dealt_steps {moves : List Move}
    (checked : run.Checked origin tasks listed acts store)
    (moved : run.steps engines moves = some last)
    (dealt : ∀ task, run.tasks[number]? = some task → task.table.isPartitioned = true →
      task.store = some store → run.ledger.Dealt acts number task store written) :
    last.Checked origin tasks listed (acts ++ run.trace engines moves) store ∧
      ∀ task, last.tasks[number]? = some task → task.table.isPartitioned = true →
        task.store = some store →
        last.ledger.Dealt (acts ++ run.trace engines moves) number task store
          (written ++ run.verificationCalls engines number moves) := by
  induction moves generalizing run acts written with
  | nil =>
    cases moved
    rw [trace, verificationCalls, List.append_nil, List.append_nil]
    exact ⟨checked, dealt⟩
  | cons move rest hyp =>
    unfold steps at moved
    obtain ⟨next, first, later⟩ := Option.bind_eq_some_iff.mp moved
    have goes := checked.faithful.healthy.goes first
    have all := hyp (checked.step first) later fun after found' partitioned shared => by
      obtain ⟨task, found, on⟩ := origin_of_found goes checked.faithful.healthy.sound found'
      have table : after.table = task.table := on.kind.table
      have same : after.store = task.store := on.kind.store
      rw [table] at partitioned
      rw [same] at shared
      exact checked.dealt_step found partitioned shared first found'
        (dealt task found partitioned shared)
    obtain ⟨new, events, shown⟩ := (step_wrote first).shown
    have seen : Event.writes (next.events.drop run.events.length) = run.writes move := by
      rw [events, List.drop_left, shown]
    rw [trace, verificationCalls, first]
    dsimp only
    rw [seen, ← List.append_assoc, ← List.append_assoc]
    exact all

/-! ### The division is recorded -/

/-- **A final verification records every partition once.** Let a scheduler with a store run tasks
that were made from outside, whatever the engines and the stores do. Once the final verification of
a partitioned task with the same store was executed and its job is over, the calls that were seen of
it are these: the verification has recorded the partitions that differ as failed, and then the task
those that agree, as succeeded or with the status that it has for this case. All other actions of
the task have succeeded, and the final verification has iff no partition differs. -/
theorem records_division {scheduler : Scheduler} {state : σ} {moves : List Move}
    {execution : Execution} (resting : scheduler.AtRest) (itself : scheduler.verifiesItself = true)
    (known : scheduler.store = some store) (made : ∀ task ∈ tasks, task.Made)
    (launched : scheduler.launch tasks listed state = .started run)
    (reached : run.steps engines moves = some last)
    (executed : .executed number .finalVerification execution ∈ run.trace engines moves)
    (done : ∀ job ∈ last.ledger.jobs, job.verifies number = false)
    (found : last.tasks[number]? = some task) (partitioned : task.table.isPartitioned = true)
    (shared : task.store = some store) :
    let differing := task.table.partitions.filter fun partition => !task.partitionAgrees partition
    let agreeing := task.table.partitions.filter task.partitionAgrees
    let calls := run.verificationCalls engines number moves
    calls =
        (if differing = [] then [] else [(.verification, store,
          .status task.table.database task.table.name differing .failed)]) ++
        (if agreeing = [] then [] else [(.task, store,
          .status task.table.database task.table.name agreeing
            (if differing = [] then .succeeded else task.failureStatus))]) ∧
      (∀ call ∈ calls, call.2.2.partitions ≠ []) ∧
      (calls.flatMap fun call => call.2.2.partitions).Perm task.table.partitions ∧
      (∀ action progress, action ≠ .finalVerification →
        task.actionProgress action = some progress → progress = .succeeded) ∧
      task.actionProgress .finalVerification =
        some (if differing = [] then .succeeded else .failed) := by
  intro differing agreeing calls
  have begins := resting.begins launched
  have jobs : run.ledger.jobs = 0 := begins.jobs
  have unasked : ∀ task, run.ledger.Dealt [] number task store [] := fun _ =>
    .unasked (by rw [jobs]; rfl) (fun _ => List.not_mem_nil) rfl
  obtain ⟨checked, dealt⟩ := (checked_begins begins known itself made).dealt_steps reached
    fun task _ _ _ => unasked task
  rw [List.nil_append] at checked
  have custody := checked.custody
  have there : last.ledger.custody.tasks number = some task.deaf := custody_of_found found
  -- the job is over, and it has made all its writes
  have idle : Job.verifications number last.ledger.jobs = 0 :=
    Multiset.filter_eq_nil.mpr fun job held mine => by
      rw [done job held] at mine
      cases mine
  have whole : calls = task.divisionWrites store := by
    cases dealt task found partitioned shared with
    | unasked _ never => exact absurd executed (never execution)
    | underway stage one => exact absurd (one.symm.trans idle) (Multiset.singleton_ne_zero _)
    | ended _ _ whole => exact whole
  obtain ⟨filled, perm⟩ := Task.partitions_divisionWrites store partitioned
  refine ⟨whole.trans (Task.divisionWrites_eq store partitioned), whole ▸ filled, whole ▸ perm,
    fun action progress apart present => ?_, ?_⟩
  · exact custody.since.coherent.tells.cleared_of_executed there executed action
      (Custody.below_finalVerification apart) progress present
  · have gone := Ledger.gone_of_executed custody.since.coherent.tells executed idle
    have ended : task.deaf.actionProgress .finalVerification =
        some (Task.verdict task.deaf.validatePartitions).progress :=
      custody.progress there executed partitioned gone
    rw [Task.progress_verdict] at ended
    simp only [List.isEmpty_iff] at ended
    exact ended

end Run

/-! ### A store that refuses -/

namespace Run

/-- A scheduler with a store. -/
def recordingScheduler : Scheduler :=
  .create (some 0) true true true fun _ => ⟨1, 1⟩

/-- A task with three partitions that are counted twice and verified. -/
def recordedTask : Task :=
  (Task.create "t" ⟨"d", "b", ["p"], [⟨["x"]⟩, ⟨["y"]⟩, ⟨["z"]⟩]⟩ ⟨none⟩ (some 0) .pending).mutated
    [.add .sourceValidate, .add .destinationValidate, .add .finalVerification]

/-- Engines that count the second partition differently, beside a store that may fail. -/
def differingEngines : Engines FaultyStore where
  backend := FaultyStore.backend
  call _ _ _ action stores :=
    let counts : RowCounts :=
      [("x", "1"), ("y", if action = .sourceValidate then "2" else "3"), ("z", "4")]
    (.returned { Execution.succeed with counts := some counts }, stores)

/-- A store that refuses to set any status. -/
def refusingStore : FaultyStore :=
  (FaultyStore.create 1).setFault .status (some "unavailable")

/-- The task is counted at both ends, and verified then. -/
def recordingMoves : List Move :=
  List.replicate 7 .advance ++ jobMoves .source ++ List.replicate 3 .advance ++
    jobMoves .destination ++ List.replicate 9 .advance ++
    .take .validation :: List.replicate 10 (.work .validation 0)

/-- The store refuses both writes of this run, and both are made. -/
theorem records_division_refused : ∃ run last task,
    recordingScheduler.launch [recordedTask] [0] refusingStore = .started run ∧
    run.steps differingEngines recordingMoves = some last ∧ last.tasks[0]? = some task ∧
    run.verificationCalls differingEngines 0 recordingMoves =
      [(.verification, 0, .status "d" "b" [⟨["y"]⟩] .failed),
        (.task, 0, .status "d" "b" [⟨["x"]⟩, ⟨["z"]⟩] .pending)] ∧
    task.actionProgress .finalVerification = some .failed := by
  have goes : (recordingScheduler.launch [recordedTask] [0] refusingStore).leads differingEngines
      recordingMoves (fun run last => .executed 0 .finalVerification
            (Task.verdict ⟨[⟨["x"]⟩, ⟨["z"]⟩], [⟨["y"]⟩]⟩) ∈
          run.trace differingEngines recordingMoves ∧
        (∀ job ∈ last.ledger.jobs, job.verifies 0 = false) ∧
        (last.tasks[0]?.any fun task => task.table = recordedTask.table ∧
          task.store = some 0 ∧ task.failureStatus = .pending ∧
          task.validatePartitions = ⟨[⟨["x"]⟩, ⟨["z"]⟩], [⟨["y"]⟩]⟩) = true) = true := by
    decide +kernel
  obtain ⟨run, last, launched, reached, ends⟩ := Launch.of_leads goes
  obtain ⟨executed, done, has⟩ := of_decide_eq_true ends
  obtain ⟨task, found, has⟩ := (Option.any_eq_true _ _).mp has
  obtain ⟨table, shared, status, division⟩ := of_decide_eq_true has
  have resting : recordingScheduler.AtRest := Scheduler.atRest_create (some 0) true true true _
  have made : ∀ task ∈ [recordedTask], task.Made :=
    List.forall_mem_singleton.mpr ⟨_, _, _, _, _, _, rfl⟩
  obtain ⟨calls, _, _, _, ended⟩ := records_division resting rfl rfl made launched reached
    executed done found (by rw [table]; rfl) shared
  have differing : task.table.partitions.filter (fun partition =>
      !task.partitionAgrees partition) = [⟨["y"]⟩] := congrArg Validation.failed division
  have agreeing : task.table.partitions.filter task.partitionAgrees = [⟨["x"]⟩, ⟨["z"]⟩] :=
    congrArg Validation.succeeded division
  rw [differing, agreeing, table, status] at calls
  rw [differing] at ended
  exact ⟨run, last, task, launched, reached, found, calls, ended⟩

end Run

end TableMigration
