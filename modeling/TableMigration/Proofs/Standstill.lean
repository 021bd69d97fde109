/-
**When a pass may end a run.**

* `Run.countedIn` and `Run.countedOut` list the actions that some moves count in and out: the
  scheduling thread counts an action in, and the worker that has run it counts it out, or the
  scheduling thread if its pool has refused it.
* `Run.Counting` — wherever a run has come, its counters count these actions, and there is something
  to wait for whenever it waits (`Run.Counting.steps`).
* `Run.counters` — so the test of a pass succeeds only if nothing can happen any more
  (`Run.Standstill`), and if it fails with nothing in flight, an action has completed since the pass
  began.
-/

import TableMigration.Proofs.Counters

namespace TableMigration

namespace Run

variable {σ : Type} {engines : Engines σ} {run next last origin : Run σ} {acts : List Act}
  {entered left : List (Nat × Action)} {move : Move}

/-! ### What is counted -/

/-- What a move counts in, with the acts so far. -/
def countsIn (run : Run σ) (acts : List Act) : Move → List (Nat × Action)
  | .advance => run.ledger.countsIn acts
  | .take _ | .work .. => []

/-- What a move counts out, with the acts so far. -/
def countsOut (run : Run σ) (acts : List Act) : Move → List (Nat × Action)
  | .advance => run.ledger.countsOut acts
  | .take _ => []
  | .work engine place =>
    match (run.scheduler.pools.get engine).running[place]? with
    | some ⟨_, _, ⟨number, action, .countOut _⟩⟩ => [(number, action)]
    | _ => []

/-- What some moves count in, one after the other. -/
def countedIn (engines : Engines σ) (run : Run σ) (acts : List Act) :
    List Move → List (Nat × Action)
  | [] => []
  | move :: rest =>
    match run.step engines move with
    | none => []
    | some next =>
      run.countsIn acts move ++ next.countedIn engines (acts ++ run.acts engines move) rest

/-- What some moves count out, one after the other. -/
def countedOut (engines : Engines σ) (run : Run σ) (acts : List Act) :
    List Move → List (Nat × Action)
  | [] => []
  | move :: rest =>
    match run.step engines move with
    | none => []
    | some next =>
      run.countsOut acts move ++ next.countedOut engines (acts ++ run.acts engines move) rest

/-- Whether the counters count the actions that were counted in and out, with the acts so far. -/
structure Counts (run : Run σ) (acts : List Act) (entered left : List (Nat × Action)) : Prop where
  handed : ∀ key ∈ entered, .dispatched key.1 key.2 ∈ acts
  entered_once : entered.Nodup
  left_once : left.Nodup
  left_entered : ∀ key ∈ left, key ∈ entered
  inFlight : run.scheduler.inFlight = (entered.filter (· ∉ left)).length
  completions : run.scheduler.completions = left.length

/-- Whether nothing can happen any more to the tasks with some numbers: no action is being handed
out, no action has still to be run or reported, and no task that goes on has an action that is
ready. -/
structure Standstill (run : Run σ) (listed : List Nat) : Prop where
  agenda : ∀ duty ∈ run.agenda, duty.isHanding = false
  jobs : ∀ job ∈ run.ledger.jobs, ∃ execution, job.stage = .leave execution
  tasks : ∀ number ∈ listed, ∀ task, run.tasks[number]? = some task →
    task.progress.isTerminal = true ∨ task.readyActions = []

/-! ### Moves -/

/-- What a worker does with a job: the counters count it out in one stage, and never before. -/
theorem Does.counts {number : Nat} {task : Task} {action : Action} {stage later : Stage}
    {after : Run σ} (does : Does engines run number task action stage after later) :
    (Job.isOpen ⟨number, action, later⟩ = true → Job.isOpen ⟨number, action, stage⟩ = true) ∧
      after.ledger.completions = run.ledger.completions +
        if Job.isOpen ⟨number, action, stage⟩ = true ∧ Job.isOpen ⟨number, action, later⟩ = false
          then 1 else 0 := by
  cases does with
  | call =>
    exact ⟨fun _ => rfl,
      congrArg Ledger.completions (aside_callEngine engines run number task action).ledger⟩
  | deliver execution changed delivery rest =>
    exact ⟨fun _ => rfl,
      congrArg Ledger.completions (aside_deliver engines run number delivery).ledger⟩
  | announce execution changed =>
    exact ⟨fun _ => rfl, congrArg Ledger.completions (aside_announce run number changed).ledger⟩
  | _ => exact ⟨fun _ => rfl, rfl⟩

/-- A worker counts its job out when it leaves it counted out. -/
theorem Does.countsOut {number place ticket priority : Nat} {task : Task} {action : Action}
    {stage later : Stage} {after : Run σ} {engine : Engine}
    (does : Does engines run number task action stage after later)
    (job : (run.scheduler.pools.get engine).running[place]? =
      some ⟨ticket, priority, ⟨number, action, stage⟩⟩) :
    run.countsOut acts (.work engine place) =
      if Job.isOpen ⟨number, action, stage⟩ = true ∧ Job.isOpen ⟨number, action, later⟩ = false
        then [(number, action)] else [] := by
  unfold Run.countsOut
  simp only [job]
  cases does <;> rfl

/-! ### Wherever a run has come -/

/-- What holds of a run all along, with the actions that were counted in and out so far. -/
structure Counting (run : Run σ) (origin : Run σ) (acts : List Act)
    (entered left : List (Nat × Action)) : Prop where
  healthy : run.Healthy
  tells : run.ledger.custody.Tells acts
  tallied : run.ledger.Tallied acts entered left
  completed : run.ledger.completions = left.length
  sustained : run.ledger.Sustained
  grouped : ∀ number, origin.tables.Has number → run.tables.Has number
  length : run.tasks.length = origin.tasks.length

/-- **A move keeps the tally.** -/
theorem Counting.tally (counting : run.Counting origin acts entered left)
    (moved : run.step engines move = some next) :
    next.ledger.Tallied (acts ++ run.acts engines move) (entered ++ run.countsIn acts move)
        (left ++ run.countsOut acts move) ∧
      next.ledger.completions = run.ledger.completions + (run.countsOut acts move).length := by
  obtain ⟨healthy, _, tallied, _, _, _, _⟩ := counting
  cases move with
  | advance =>
    have step := Campaign.step_finishes moved
    have turns := advance_turns moved
    exact ⟨step.tallied turns healthy.sound healthy.orderly tallied,
      step.completed turns tallied.fits⟩
  | take engine =>
    show next.ledger.Tallied (acts ++ []) (entered ++ []) (left ++ []) ∧
      next.ledger.completions = run.ledger.completions + 0
    rw [take_ledger moved, List.append_nil, List.append_nil, List.append_nil]
    exact ⟨tallied, rfl⟩
  | work engine place =>
    obtain ⟨⟨ticket, priority, number, action, stage⟩, task, job, found, goes⟩ := work_cases moved
    obtain ⟨others, jobs, amended, finished⟩ := ledger_amend job
    have silent : Act.handed (run.acts engines (.work engine place)) = [] := by
      rw [acts_work job found]
      split <;> rfl
    have agenda : next.ledger.agenda = run.ledger.agenda := agenda_step moved nofun
    rw [show run.countsIn acts (.work engine place) = [] from rfl, List.append_nil]
    rcases goes with ⟨after, later, does, rfl⟩ | ⟨execution, ending, notices, leaves, rfl⟩
    · obtain ⟨closes, completes⟩ := does.counts
      have after_ := amended after ⟨number, action, later⟩ does.pools
      rw [does.countsOut job]
      refine ⟨tallied.work jobs silent agenda (congrArg Ledger.jobs after_) rfl closes, ?_⟩
      rw [after_]
      refine Eq.trans completes ?_
      split <;> rfl
    · have leaves : stage = .leave execution := leaves
      subst leaves
      have same := (aside_tell (run.setPool engine ((run.scheduler.pools.get engine).finish place
        ending)) notices).ledger.trans (finished ending)
      have still : run.countsOut acts (.work engine place) = [] := by
        unfold Run.countsOut
        simp only [job]
      have told : run.acts engines (.work engine place) = [] := by
        rw [acts_work job found]
        exact if_neg nofun
      rw [still, told, List.append_nil, List.append_nil]
      have held := jobs.trans (congrArg (Multiset.cons (Job.mk number action (.leave execution)))
        (congrArg Ledger.jobs same).symm)
      refine ⟨tallied.leave held rfl agenda, ?_⟩
      rw [same]
      rfl

/-- **A move keeps what holds of the counters.** -/
theorem Counting.step (counting : run.Counting origin acts entered left)
    (moved : run.step engines move = some next) :
    next.Counting origin (acts ++ run.acts engines move) (entered ++ run.countsIn acts move)
      (left ++ run.countsOut acts move) := by
  obtain ⟨tallied, completed⟩ := counting.tally moved
  have step := Campaign.step_finishes moved
  have goes := counting.healthy.goes moved
  have healthy := counting.healthy.step moved
  exact {
    healthy := healthy
    tells := goes.tells counting.healthy.sound healthy.sound counting.tells
    tallied := tallied
    completed := by rw [completed, counting.completed, List.length_append]
    sustained := step.sustained counting.healthy.orderly counting.healthy.balanced
      counting.sustained
    grouped number has := step.has (counting.grouped number has)
    length := step.length.trans counting.length }

/-- **So do some moves, one after the other.** -/
theorem Counting.steps {moves : List Move} (counting : run.Counting origin acts entered left)
    (moved : run.steps engines moves = some last) :
    last.Counting origin (acts ++ run.trace engines moves)
      (entered ++ run.countedIn engines acts moves)
      (left ++ run.countedOut engines acts moves) := by
  induction moves generalizing run acts entered left with
  | nil =>
    cases moved
    simpa only [trace, countedIn, countedOut, List.append_nil] using counting
  | cons move rest hyp =>
    unfold steps at moved
    obtain ⟨next, first, later⟩ := Option.bind_eq_some_iff.mp moved
    have after := hyp (counting.step first) later
    simpa only [trace, countedIn, countedOut, first, List.append_assoc] using after

/-- Nothing is counted when a run begins. -/
theorem counting_begins {scheduler : Scheduler} {tasks : List Task} {listed : List Nat} {state : σ}
    (begins : scheduler.Begins tasks listed state run) : run.Counting run [] [] [] := by
  obtain ⟨inFlight, completions, seen, dispatched⟩ := begins.counters
  have late := begins.agenda_late
  have quiet : ∀ duty ∈ run.agenda, duty.isHanding = false :=
    fun duty planned => Duty.not_handing_of_rank (Nat.le_trans (Nat.le_add_left 1 2)
      (late duty planned))
  obtain ⟨noIn, noSubmit, noOut⟩ := Duty.countP_of_not_handing quiet
  have jobs : run.ledger.jobs = 0 := begins.jobs
  have only : ∀ duty ∈ run.agenda, duty = .beginPass ∨ duty ∈ Duty.closing := by
    intro duty planned
    rw [begins.agenda] at planned
    split at planned
    · exact .inr planned
    · exact .inl (List.mem_singleton.mp planned)
  refine ⟨begins.healthy, fun number action => ?_, ⟨?_, fun duty planned => ?_, ?_, ?_⟩, ?_,
    ⟨?_, fun waits => ?_, ?_⟩, fun _ => id, rfl⟩
  · refine ⟨_, .untold, fun station member => ?_, fun told => absurd rfl told⟩
    rw [Campaign.custody_begins begins] at member
    exact absurd member (Multiset.notMem_zero _)
  · refine List.Pairwise.imp_of_mem (fun {_ second} _ member _ _ => quiet second member)
      (List.pairwise_of_forall (R := fun _ _ => True) fun _ _ => trivial)
  · exact Duty.fits_of_not_handing (quiet duty planned)
  · show _ + run.agenda.countP Duty.isCountIn • _ = _
    rw [noIn, zero_nsmul]
    rfl
  · show _ + run.agenda.countP Duty.isCountIn • _ = _ + (run.agenda.countP Duty.isSubmit +
      run.agenda.countP Duty.isCountOut) • _ + _
    rw [jobs, noIn, noSubmit, noOut]
    rfl
  · exact completions
  · show run.seen + run.dispatched ≤ _
    rw [seen, dispatched]
    exact Nat.zero_le _
  · rcases only _ waits with same | closing
    · cases same
    · cases Duty.rank_closing closing
  · rintro ⟨key, giving⟩
    rcases only _ giving with same | closing
    · cases same
    · simp [Duty.closing, Engine.all] at closing

/-! ### What the counters say -/

/-- **The counters count what was counted in and out.** -/
theorem Counting.counts (counting : run.Counting origin acts entered left) :
    run.Counts acts entered left := by
  obtain ⟨healthy, tells, tallied, completed, _, _, _⟩ := counting
  obtain ⟨away, split, card⟩ := tallied.away healthy.balanced
  have once : (entered : Multiset (Nat × Action)).Nodup := by
    have handed := Multiset.coe_nodup.mpr (Act.handed_nodup tells)
    rw [← tallied.handed] at handed
    exact Multiset.nodup_of_le (Multiset.le_add_right _ _) handed
  obtain ⟨leftOnce, _, apart⟩ := Multiset.nodup_add.mp (split ▸ once)
  have awayIs : ((entered.filter (· ∉ left) : List (Nat × Action)) : Multiset _) = away := by
    have stays : ∀ key ∈ away, key ∉ left := fun key member out =>
      Multiset.disjoint_left.mp apart (Multiset.mem_coe.mpr out) member
    rw [← Multiset.filter_coe, split, Multiset.filter_add,
      Multiset.filter_eq_nil.mpr fun key member => not_not_intro (Multiset.mem_coe.mp member),
      zero_add, Multiset.filter_eq_self.mpr stays]
  refine ⟨fun key member => ?_, Multiset.coe_nodup.mp once, Multiset.coe_nodup.mp leftOnce,
    fun key member => ?_, ?_, completed⟩
  · have all : key ∈ Act.handed acts := Multiset.mem_coe.mp
      (tallied.handed ▸ Multiset.mem_add.mpr (.inl (Multiset.mem_coe.mpr member)))
    exact Act.dispatched_of_handed all
  · exact Multiset.mem_coe.mp (split ▸ Multiset.mem_add.mpr (.inl (Multiset.mem_coe.mpr member)))
  · rw [← Multiset.coe_card, awayIs]
    exact card

/-- A move that counts out counts nothing in. -/
theorem countsIn_nil (counted : run.countsOut acts move ≠ []) : run.countsIn acts move = [] := by
  cases move with
  | advance =>
    refine if_neg fun into => counted (if_neg fun out => ?_)
    cases into.symm.trans out
  | take engine => rfl
  | work engine place => rfl

/-- **What is counted out was in flight.** -/
theorem Counting.inFlight_pos (counting : run.Counting origin acts entered left)
    (moved : run.step engines move = some next) (counted : run.countsOut acts move ≠ []) :
    0 < run.scheduler.inFlight := by
  have after := (counting.step moved).counts
  obtain ⟨key, out⟩ := List.exists_mem_of_ne_nil _ counted
  have into := after.left_entered key (List.mem_append_right _ out)
  rw [countsIn_nil counted, List.append_nil] at into
  have away : key ∉ left := fun old =>
    (List.nodup_append.mp after.left_once).2.2 key old key out rfl
  rw [counting.counts.inFlight]
  exact List.length_pos_of_mem (List.mem_filter.mpr ⟨into, decide_eq_true away⟩)

/-- A listed task belongs to a group. -/
theorem Counting.has {scheduler : Scheduler} {tasks : List Task} {listed : List Nat} {state : σ}
    {number : Nat} (counting : run.Counting origin acts entered left)
    (begins : scheduler.Begins tasks listed state origin) (member : number ∈ listed)
    (exists_ : number < run.tasks.length) : run.tables.Has number := by
  have began := congrFun (congrArg Custody.tasks (Campaign.custody_begins begins)) number
  have known : origin.ledger.custody.tasks number = some _ :=
    congrArg (Option.map Task.deaf) (List.getElem?_eq_getElem (counting.length ▸ exists_))
  obtain ⟨task, found, _⟩ := Option.map_eq_some_iff.mp (began.symm.trans known)
  exact counting.grouped number (begins.grouped ▸ Grouping.has_ofTasks member found)

/-- **When all is quiet and no task can go on, nothing can happen any more.** -/
theorem Counting.standstill {scheduler : Scheduler} {tasks : List Task} {listed : List Nat}
    {state : σ} (counting : run.Counting origin acts entered left)
    (begins : scheduler.Begins tasks listed state origin) (quiet : run.ledger.Quiet)
    (gone : ∀ number, run.tables.Has number → run.ledger.custody.Left number) :
    run.Standstill listed := by
  obtain ⟨landed, idle⟩ := counting.healthy.balanced.quiet quiet
  refine ⟨idle, fun job member => ?_, fun number member task found => ?_⟩
  · obtain ⟨jobs, split⟩ := Multiset.exists_cons_of_mem member
    have closed := counting.healthy.balanced.not_open quiet split
    obtain ⟨_, _, stage⟩ := job
    cases stage <;> first | (cases closed; done) | exact ⟨_, rfl⟩
  · have has := counting.has begins member (List.getElem?_eq_some_iff.mp found).1
    have known : run.ledger.custody.tasks number = some task.deaf := congrArg (Option.map _) found
    rcases gone number has with ended | ⟨settled, _⟩
    · exact .inl (ended task.deaf known)
    · exact settled task.deaf known

/-- When nothing is in flight though something has happened in the pass, an action has completed
since the pass began. -/
theorem Counting.newer (counting : run.Counting origin acts entered left)
    (unquiet : ¬ run.ledger.Quiet) (landed : run.scheduler.inFlight = 0)
    (late : ∀ duty ∈ run.agenda, 1 ≤ duty.rank) : run.seen < run.scheduler.completions := by
  have sustained := counting.sustained.sustained
  have still : run.agenda.countP Duty.isCountIn = 0 :=
    (Duty.countP_of_not_handing fun duty planned => Duty.not_handing_of_rank (late duty planned)).1
  have sustained : run.seen + run.dispatched ≤ run.scheduler.completions +
      run.scheduler.inFlight + run.agenda.countP Duty.isCountIn := sustained
  have unquiet : ¬ (run.dispatched = 0 ∧ run.scheduler.inFlight = 0 ∧
      run.scheduler.completions = run.seen) := unquiet
  rw [still, landed] at sustained
  rw [landed] at unquiet
  omega

/-- As long as something is in flight when nothing is being handed out, a worker can make a move. -/
theorem Counting.exists_move (counting : run.Counting origin acts entered left)
    (flying : 0 < run.scheduler.inFlight) (late : ∀ duty ∈ run.agenda, 1 ≤ duty.rank) :
    ∃ move next, move ≠ .advance ∧ run.step engines move = some next := by
  have idle : ∀ duty ∈ run.agenda, duty.isHanding = false :=
    fun duty planned => Duty.not_handing_of_rank (late duty planned)
  obtain ⟨noIn, noSubmit, noOut⟩ := Duty.countP_of_not_handing idle
  have flight : run.scheduler.inFlight + run.agenda.countP Duty.isCountIn =
      run.agenda.countP Duty.isSubmit + run.agenda.countP Duty.isCountOut +
        Ledger.openJobs run.scheduler.pools.jobs := counting.healthy.balanced.flight
  rw [noIn, noSubmit, noOut] at flight
  have busy : ¬ ∀ engine, (run.scheduler.pools.get engine).Empty := by
    intro empty
    have away : Ledger.openJobs run.scheduler.pools.jobs = 0 := by
      rw [jobs_of_empty empty]
      rfl
    omega
  obtain ⟨engine, busy⟩ := not_forall.mp busy
  have goes : ∃ move next, move ≠ .advance ∧ run.step engines move = some next ∧
      next.load < run.load := counting.healthy.exists_work busy
  obtain ⟨move, next, works, moved, _⟩ := goes
  exact ⟨move, next, works, moved⟩

/-- **The counters say what they should, wherever a run has come.** They count what was counted in
and out, and nothing is counted out that was not in flight. The test of a pass succeeds only if
nothing can happen any more, and so a table is given up only then. If the test fails with nothing
in flight, an action has completed since the pass began, and the scheduling thread waits only if
there is such an action or a worker can make a move. -/
theorem counters {scheduler : Scheduler} {tasks : List Task} {listed : List Nat} {state : σ}
    {moves : List Move} (resting : scheduler.AtRest)
    (launched : scheduler.launch tasks listed state = .started run)
    (reached : run.steps engines moves = some last) :
    last.Counts (run.trace engines moves) (run.countedIn engines [] moves)
      (run.countedOut engines [] moves) ∧
    (∀ move next, last.step engines move = some next →
      last.countsOut (run.trace engines moves) move ≠ [] → 0 < last.scheduler.inFlight) ∧
    (last.agenda.head? = some .test →
      (last.dispatched = 0 ∧ last.scheduler.inFlight = 0 ∧
          last.scheduler.completions = last.seen → last.Standstill listed) ∧
        (¬ (last.dispatched = 0 ∧ last.scheduler.inFlight = 0 ∧
            last.scheduler.completions = last.seen) →
          last.scheduler.inFlight = 0 → last.seen < last.scheduler.completions)) ∧
    ((∃ key, .giveUp key ∈ last.agenda) → last.Standstill listed) ∧
    (last.agenda.head? = some .wait → last.seen < last.scheduler.completions ∨
      ∃ move next, move ≠ .advance ∧ last.step engines move = some next) := by
  have begins := resting.begins launched
  have counting := (counting_begins begins).steps reached
  simp only [List.nil_append] at counting
  have behind : ∀ duty, last.agenda.head? = some duty → 3 ≤ duty.rank →
      ∃ rest, last.agenda = duty :: rest ∧ ∀ other ∈ last.agenda, 1 ≤ other.rank := by
    intro duty first late
    obtain ⟨rest, head⟩ := List.head?_eq_some_iff.mp first
    have orderly := counting.healthy.orderly
    rw [head] at orderly
    refine ⟨rest, head, fun other planned => ?_⟩
    rw [head] at planned
    rcases List.mem_cons.mp planned with rfl | old
    · omega
    · have := (List.rel_of_pairwise_cons orderly old).1
      omega
  refine ⟨counting.counts, fun move next => counting.inFlight_pos, fun testing => ?_,
    fun giving => ?_, fun waiting => ?_⟩
  · obtain ⟨rest, head, late⟩ := behind .test testing (Nat.le_refl 3)
    refine ⟨fun quiet => counting.standstill begins quiet fun number has => ?_,
      fun unquiet landed => counting.newer unquiet landed late⟩
    exact counting.healthy.covered.left_of_test counting.healthy.balanced counting.healthy.orderly
      head (.inr quiet) has
  · obtain ⟨closing, quiet⟩ := counting.sustained.stuck giving
    exact counting.standstill begins quiet fun number =>
      counting.healthy.covered.left closing number
  · obtain ⟨rest, head, late⟩ := behind .wait waiting (Nat.le_refl 3)
    have waits : .wait ∈ last.agenda := head ▸ List.mem_cons_self
    have unquiet := counting.sustained.awaits waits
    rcases Nat.eq_zero_or_pos last.scheduler.inFlight with landed | flying
    · exact .inl (counting.newer unquiet landed late)
    · exact .inr (counting.exists_move flying late)

/-- One of three actions was refused and counted out, and the run waits for the other two. -/
theorem counters_small : ∃ run last,
    smallScheduler.launch troubledTasks [0, 1, 2] () = .started run ∧
    run.steps troubledEngines troubledPasses = some last ∧
    last.agenda = [.wait] ∧ last.seen = last.scheduler.completions ∧
    last.Counts (run.trace troubledEngines troubledPasses)
      [(0, .createTable), (1, .load), (2, .load)] [(2, .load)] ∧
    ∃ move next, move ≠ .advance ∧ last.step troubledEngines move = some next := by
  have goes : (smallScheduler.launch troubledTasks [0, 1, 2] ()).leads troubledEngines troubledPasses
      (fun run last => last.agenda = [.wait] ∧ last.seen = last.scheduler.completions ∧
        run.countedIn troubledEngines [] troubledPasses =
          [(0, .createTable), (1, .load), (2, .load)] ∧
        run.countedOut troubledEngines [] troubledPasses = [(2, .load)]) = true := by decide +kernel
  obtain ⟨run, last, launched, reached, ends⟩ := Launch.of_leads goes
  obtain ⟨agenda, seen, into, out⟩ := of_decide_eq_true ends
  obtain ⟨counts, _, _, _, waits⟩ :=
    counters (Scheduler.atRest_create none true true true _) launched reached
  rw [into, out] at counts
  refine ⟨run, last, launched, reached, agenda, seen, counts, ?_⟩
  rcases waits (congrArg List.head? agenda) with newer | worker
  · exact absurd seen (Nat.ne_of_lt newer)
  · exact worker

end Run

end TableMigration
