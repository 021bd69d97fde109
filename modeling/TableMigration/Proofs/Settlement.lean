/-
**What the end of a task settles is recorded.**

* `Custody.Certain.stays_settled` — the partitions that the end of a fresh task settles are the same ever
  after, and the step that ends the task calls for their status (`Ledger.Step.calls`).
* `Run.kept_or_written` — a delivery that is to be made is kept until it is.
* `Run.Recorded` — so every task that has ended has its partitions recorded, or the delivery is to
  be made. What is written on partitions besides is what a final verification found to differ.
-/

import TableMigration.Proofs.Reconciliation
import TableMigration.Proofs.TableCalls

namespace TableMigration

/-! ### What is settled stays so -/

namespace Task

variable {task after : Task}

theorem checkpointDeliveries_of_going (going : task.progress.isTerminal = false) :
    task.checkpointDeliveries = [] := by
  have unsettled : task.checkpoint = none := by
    unfold checkpoint
    split
    · rfl
    · split <;> first | rfl | (rename_i ended; rw [ended] at going; cases going)
  unfold checkpointDeliveries
  rw [unsettled]

theorem ended_of_settles {delivery : Delivery} (settles : delivery ∈ task.checkpointDeliveries) :
    task.progress.isTerminal = true := by
  cases ended : task.progress.isTerminal with
  | true => rfl
  | false =>
    rw [checkpointDeliveries_of_going ended] at settles
    cases settles

theorem checkpointDeliveries_congr (kind : after.SameKind task)
    (same : after.checkpoint = task.checkpoint) :
    after.checkpointDeliveries = task.checkpointDeliveries := by
  unfold checkpointDeliveries
  rw [same, kind.table]

end Task

namespace Custody

variable {start custody next : Custody} {answers : Nat → Task → Action → Execution → Prop}
  {acts new : List Act} {number : Nat} {task after : Task}

/-- Once the final verification has ended, the division of the partitions stays as it is. -/
theorem Step.validation (step : custody.Step answers new next) (sound : custody.Sound)
    (found : custody.tasks number = some task) (found' : next.tasks number = some after)
    (cleared : task.Cleared .finalVerification)
    (still : task.actionProgress .finalVerification ≠ some .running) :
    after.validation = task.validation := by
  have unmoved : next.tasks = custody.tasks → after.validation = task.validation := by
    intro same
    rw [same] at found'
    cases found.symm.trans found'
    rfl
  cases step with
  | quiet | findEnded | look | miss | collect | lose | pass => exact unmoved rfl
  | dispatch held known | settle held known =>
    exact validation_setTask known (Task.validation_update ..) found found'
  | keepCounts held known =>
    exact validation_setTask known (Task.validation_withCounts ..) found found'
  | @keepValidation other action execution old others held known =>
    by_cases equal : number = other
    · -- no action of the task is running any more
      subst equal
      have running : task.actionProgress action = some .running := (sound.held held found).1
      by_cases isLast : action = .finalVerification
      · exact absurd (isLast ▸ running) still
      · cases cleared action (below_finalVerification isLast) .running running
    · have same : custody.tasks number = some after := (if_neg equal).symm.trans found'
      cases found.symm.trans same
      rfl

/-- **What the end of a task settles stays so.** -/
theorem Since.stays_settled (since : Since start acts custody)
    (later : Since start (acts ++ new) next) (step : custody.Step answers new next)
    (found : custody.tasks number = some task) (found' : next.tasks number = some after)
    (ended : task.progress.isTerminal = true) : after.checkpoint = task.checkpoint := by
  by_cases gone : start.Ended number
  · -- the task had ended before the run, and is not touched
    rw [later.spared number gone, ← since.spared number gone] at found'
    cases found.symm.trans found'
    rfl
  have sound := since.coherent.sound
  obtain ⟨after', known, on⟩ := step.movesOn sound found
  cases found'.symm.trans known
  have progress := on.ended ended
  unfold Task.checkpoint
  rw [on.kind.table, progress]
  split
  · rfl
  split
  · rfl
  · rename_i failed
    have verified : after.actionProgress .finalVerification = some .failed ↔
        task.actionProgress .finalVerification = some .failed := by
      refine ⟨fun failed' => ?_, fun failed' => on.settled _ _ failed' rfl⟩
      -- what made the task fail can only be the final verification itself
      obtain ⟨bad, culprit⟩ := (since.judged_of_going gone found).failed.mp failed
      have culprit' := on.settled bad .failed culprit rfl
      by_cases isLast : bad = .finalVerification
      · exact isLast ▸ culprit
      · have cleared := later.cleared_of_failed gone found' failed'
        cases cleared bad (below_finalVerification isLast) .failed culprit'
    simp only [verified]
    split
    · rename_i failed'
      have cleared := since.cleared_of_failed gone found failed'
      have still : task.actionProgress .finalVerification ≠ some .running := by
        rw [failed']
        nofun
      rw [step.validation sound found found' cleared still, on.kind.failureStatus]
    · rfl
  · rfl
  · rfl

end Custody

/-! ### What the end of a task calls for -/

namespace Ledger

variable {ledger next : Ledger} {answers : Nat → Task → Action → Execution → Prop}
  {acts : List Act} {number : Nat} {task after : Task} {delivery : Delivery}

/-- **The step that ends a task calls for the status of its partitions.** -/
theorem Step.calls (step : ledger.Step answers acts next) (found : ledger.tasks[number]? = some task)
    (found' : next.tasks[number]? = some after) (going : task.progress.isTerminal = false)
    (member : delivery ∈ after.checkpointDeliveries) : next.Pending number delivery := by
  have ended : after.progress ≠ task.progress := by
    intro same
    rw [Task.checkpointDeliveries_of_going (same ▸ going)] at member
    cases member
  have unmoved : next.tasks = ledger.tasks → next.Pending number delivery := by
    intro same
    rw [same, found] at found'
    cases found'
    exact absurd rfl ended
  -- a changed task is the one that ends, and its report has called for the delivery
  have changed : ∀ {other : Nat} {old new : Task}, ledger.tasks[other]? = some old →
      next.tasks = ledger.tasks.set other new →
      (∀ delivery ∈ new.checkpointDeliveries, new.progress ≠ old.progress →
        next.Pending other delivery) → next.Pending number delivery := by
    intro other old new known same calls
    rw [same] at found'
    by_cases equal : other = number
    · subst equal
      rw [List.getElem?_set_self (List.getElem?_eq_some_iff.mp found).1] at found'
      cases found'
      cases found.symm.trans known
      exact calls delivery member ended
    · rw [List.getElem?_set_ne equal, found] at found'
      cases found'
      exact absurd rfl ended
  have reported : ∀ {old : Task} {action : Action} {reported : Progress},
      ∀ delivery ∈ (old.update action reported).task.checkpointDeliveries,
        (old.update action reported).task.progress ≠ old.progress →
          delivery ∈ (old.update action reported).deliveries := by
    intro old action reported delivery settles moved
    rcases old.update_answers action reported with ⟨same, _⟩ | ⟨_, _, calls⟩
    · exact absurd same moved
    · exact calls ▸ List.mem_append_right _ settles
  cases step with
  | @dispatch rest other action old head known =>
    refine changed known rfl fun delivery settles moved => .inl ?_
    have called := List.mem_map_of_mem (f := Duty.deliver other) (reported delivery settles moved)
    exact List.mem_append_left _ (List.mem_append_left _ (List.mem_append_left _ called))
  | @refuse rest other action old head known =>
    refine changed known rfl fun delivery settles moved => .inl ?_
    have called := List.mem_map_of_mem (f := Duty.deliver other) (reported delivery settles moved)
    exact List.mem_append_left _ (List.mem_append_left _ called)
  | report job known =>
    refine changed known rfl fun delivery settles moved => .inr ?_
    exact ⟨_, Multiset.mem_cons_self _ _, rfl, reported delivery settles moved⟩
  | keepCounts job known =>
    exact changed known rfl fun _ _ moved => absurd (Task.progress_withCounts ..) moved
  | keepValidation job known =>
    exact changed known rfl fun _ _ moved => absurd (Task.progress_withValidation ..) moved
  | unlisten head listed =>
    have same := Task.deaf_unlisten listed ledger.tasks number
    rw [found, show (listed.foldl Task.unlistenTo ledger.tasks)[number]? = some after from found']
      at same
    have equal : after.deaf = task.deaf := Option.some.inj same
    exact absurd (congrArg Task.progress equal) ended
  | _ => exact unmoved rfl

/-- Jobs stay, unless a worker goes on with one. -/
theorem Step.jobs_or_agenda (step : ledger.Step answers acts next) :
    (∀ job ∈ ledger.jobs, job ∈ next.jobs) ∨ next.agenda = ledger.agenda := by
  cases step with
  | submit => exact .inl fun job member => Multiset.mem_cons_of_mem member
  | execute | keepCounts | keepValidation | report | follow | complete | leave => exact .inr rfl
  | _ => exact .inl fun _ => id

end Ledger

/-! ### Deliveries are made -/

namespace Run

variable {σ : Type} {engines : Engines σ} {origin run next last : Run σ} {acts : List Act}
  {written : List (StoreRef × Write)} {allows : Brief → Execution → Prop} {number : Nat}
  {task : Task} {delivery : Delivery}

theorem kept_or_written_advance (moved : run.step engines .advance = some next)
    (pending : run.ledger.Pending number delivery) (found : run.tasks[number]? = some task) :
    next.ledger.Pending number delivery ∨ ∀ call ∈ task.writesOf delivery,
      call ∈ run.writes .advance := by
  have step := Campaign.step_finishes moved
  obtain ⟨duty, rest, agenda, performed⟩ := exists_of_advance moved
  obtain ⟨duties, after, _⟩ := agenda_perform performed
  have after : next.agenda = duties ++ rest := after
  rcases pending with planned | ⟨job, held, mine, delivers⟩
  · have planned : .deliver number delivery ∈ run.agenda := planned
    rw [agenda] at planned
    rcases List.mem_cons.mp planned with rfl | behind
    · right
      rw [writes_advance agenda]
      simp only [dutyWrites, found, Option.toList_some, List.flatMap_singleton]
      exact fun _ => id
    · have later : .deliver number delivery ∈ next.agenda :=
        after ▸ List.mem_append_right _ behind
      exact .inl (.inl later)
  · rcases step.jobs_or_agenda with kept | same
    · exact .inl (.inr ⟨job, kept job held, mine, delivers⟩)
    · -- the scheduling thread has done a duty, so that this is no step of a worker
      exact absurd same (advance_turns moved)

/-- A worker goes on with one job, and all others are kept. -/
theorem jobs_work {engine : Engine} {place : Nat}
    (moved : run.work engines engine place = some next) :
    ∃ ticket task others, (run.scheduler.pools.get engine).running[place]? = some ticket ∧
      run.tasks[ticket.job.task]? = some task ∧ run.ledger.jobs = ticket.job ::ₘ others ∧
      ((∃ after stage, Does engines run ticket.job.task task ticket.job.action ticket.job.stage
          after stage ∧ next.ledger = { after.ledger with
            jobs := ⟨ticket.job.task, ticket.job.action, stage⟩ ::ₘ others }) ∨
        ∃ execution, ticket.job.stage = .leave execution ∧
          next.ledger = { run.ledger with jobs := others }) := by
  obtain ⟨ticket, task, job, found, goes⟩ := work_cases moved
  obtain ⟨others, jobs, amended, finished⟩ := ledger_amend job
  refine ⟨ticket, task, others, job, found, jobs, ?_⟩
  rcases goes with ⟨after, later, does, rfl⟩ | ⟨execution, ending, notices, leaves, rfl⟩
  · exact .inl ⟨after, later, does, amended after _ does.pools⟩
  · exact .inr ⟨execution, leaves, (aside_tell _ notices).ledger.trans (finished ending)⟩

/-- **A delivery is kept until it is made.** -/
theorem kept_or_written {move : Move} (moved : run.step engines move = some next)
    (pending : run.ledger.Pending number delivery) (found : run.tasks[number]? = some task) :
    next.ledger.Pending number delivery ∨ ∀ call ∈ task.writesOf delivery,
      call ∈ run.writes move := by
  cases move with
  | advance => exact kept_or_written_advance moved pending found
  | take engine => exact .inl (take_ledger moved ▸ pending)
  | work engine place =>
    rcases pending with planned | ⟨job, held, mine, delivers⟩
    · have same : next.ledger.agenda = run.ledger.agenda := agenda_step moved nofun
      exact .inl (.inl (same ▸ planned))
    obtain ⟨ticket, other, others, worked, known, jobs, goes⟩ := jobs_work moved
    rw [jobs] at held
    rcases Multiset.mem_cons.mp held with rfl | behind
    · rw [mine, found] at known
      cases known
      have writes : run.writes (.work engine place) =
          run.stageWrites task ticket.job.action ticket.job.stage := by
        simp only [Run.writes, worked, mine, found, Option.toList_some, List.flatMap_singleton]
      rcases goes with ⟨after, later, does, jobs⟩ | ⟨execution, leaves, _⟩
      · generalize ticket.job.stage = stage at does delivers writes
        cases does with
        | deliver execution changed first rest =>
          rcases List.mem_cons.mp delivers with rfl | later
          · exact .inr (writes ▸ fun _ => id)
          · exact .inl (.inr ⟨⟨ticket.job.task, ticket.job.action, .deliver execution changed rest⟩,
              jobs ▸ Multiset.mem_cons_self _ _, mine, later⟩)
        | _ => cases delivers
      · rw [leaves] at delivers
        cases delivers
    · refine .inl (.inr ⟨job, ?_, mine, delivers⟩)
      rcases goes with ⟨_, _, _, jobs⟩ | ⟨_, _, jobs⟩
      · exact jobs ▸ Multiset.mem_cons_of_mem behind
      · exact jobs ▸ behind

end Run

/-! ### What is written on partitions -/

/-- Whether a write on partitions is explained by a task: it is what the end of the task settles, or a
final verification has found the partitions to differ. -/
inductive Task.Explains (task : Task) : Write → Prop
  | settled {write} (settles : .write write ∈ task.checkpointDeliveries) : Explains task write
  | differing {partitions} (cleared : task.Cleared .finalVerification)
      (differ : ∀ partition ∈ partitions,
        partition ∈ task.table.partitions ∧ task.partitionAgrees partition = false) :
      Explains task (.status task.table.database task.table.name partitions .failed)

namespace Run

variable {σ : Type} {engines : Engines σ} {origin run next last : Run σ} {acts new : List Act}
  {written : List (StoreRef × Write)} {allows : Brief → Execution → Prop} {verifiesItself : Bool}
  {number : Nat} {task after : Task} {answers : Nat → Task → Action → Execution → Prop}

/-- Whether what is to be written on partitions and what was written on them is right so far. -/
structure Recorded (run : Run σ) (written : List (StoreRef × Write)) : Prop where
  promised : ∀ number database name partitions status,
    run.ledger.Pending number (.write (.status database name partitions status)) →
    ∀ task, run.tasks[number]? = some task →
      .write (.status database name partitions status) ∈ task.checkpointDeliveries
  kept : ∀ number task, run.tasks[number]? = some task → ∀ delivery ∈ task.checkpointDeliveries,
    run.ledger.Pending number delivery ∨ ∀ call ∈ task.writesOf delivery, call ∈ written
  explained : ∀ call ∈ written, call.2.isOnRow = false →
    ∃ (number : Nat) (task : Task), run.tasks[number]? = some task ∧ task.Explains call.2

theorem movesOn_of_found (goes : run.ledger.custody.Step answers new next.ledger.custody)
    (sound : run.ledger.custody.Sound) (found : run.tasks[number]? = some task) :
    ∃ after, next.tasks[number]? = some after ∧ task.deaf.MovesOn after.deaf := by
  obtain ⟨_, found', on⟩ := goes.movesOn sound (custody_of_found found)
  obtain ⟨after, known, rfl⟩ := Option.map_eq_some_iff.mp found'
  exact ⟨after, known, on⟩

theorem origin_of_found (goes : run.ledger.custody.Step answers new next.ledger.custody)
    (sound : run.ledger.custody.Sound) (found' : next.tasks[number]? = some after) :
    ∃ task, run.tasks[number]? = some task ∧ task.deaf.MovesOn after.deaf := by
  obtain ⟨_, found, on⟩ := goes.origin sound (custody_of_found found')
  obtain ⟨task, known, rfl⟩ := Option.map_eq_some_iff.mp found
  exact ⟨task, known, on⟩

/-- A task that has ended has settled what it settles for good. -/
theorem settled_step {start : Custody} (since : Custody.Since start acts run.ledger.custody)
    (later : Custody.Since start (acts ++ new) next.ledger.custody)
    (goes : run.ledger.custody.Step answers new next.ledger.custody)
    (found : run.tasks[number]? = some task) (found' : next.tasks[number]? = some after)
    (ended : task.progress.isTerminal = true) :
    after.checkpointDeliveries = task.checkpointDeliveries := by
  obtain ⟨after', known, on⟩ := movesOn_of_found goes since.coherent.sound found
  cases found'.symm.trans known
  have same := since.stays_settled later goes (custody_of_found found) (custody_of_found found') ended
  have equal : after.deaf.checkpointDeliveries = task.deaf.checkpointDeliveries :=
    Task.checkpointDeliveries_congr on.kind same
  exact equal

theorem explains_step {start : Custody} {write : Write}
    (since : Custody.Since start acts run.ledger.custody)
    (later : Custody.Since start (acts ++ new) next.ledger.custody)
    (goes : run.ledger.custody.Step answers new next.ledger.custody)
    (found : run.tasks[number]? = some task) (found' : next.tasks[number]? = some after)
    (explains : task.Explains write) : after.Explains write := by
  obtain ⟨after', known, on⟩ := movesOn_of_found goes since.coherent.sound found
  cases found'.symm.trans known
  cases explains with
  | settled settles =>
    have same := settled_step since later goes found found' (Task.ended_of_settles settles)
    exact .settled (same ▸ settles)
  | @differing partitions cleared differ =>
    have table : after.table = task.table := on.kind.table
    rw [← table] at differ ⊢
    refine .differing (on.cleared cleared) fun partition member => ?_
    obtain ⟨mine, differs⟩ := differ partition member
    have same := goes.stays_counted since.coherent.sound (custody_of_found found)
      (custody_of_found found') cleared partition
    exact ⟨mine, same.trans differs⟩

/-- **A move keeps what is recorded right.** -/
theorem Recorded.step {move : Move} (recorded : run.Recorded written)
    (steady : run.Steady allows verifiesItself origin acts)
    (later : next.Steady allows verifiesItself origin (acts ++ run.acts engines move))
    (moved : run.step engines move = some next) : next.Recorded (written ++ run.writes move) := by
  have step := Campaign.step_finishes moved
  have goes := steady.healthy.goes moved
  have sound := steady.healthy.sound
  have since := steady.certain.since
  have since' := later.certain.since
  refine ⟨fun number database name partitions status pending after found' => ?_,
    fun number after found' delivery settles => ?_, fun call member beside => ?_⟩
  · rcases step.pending pending with old | ⟨_, task, action, reported, _, found, called⟩
    · obtain ⟨task, found, _⟩ := origin_of_found goes sound found'
      have settles := recorded.promised number database name partitions status old task found
      have same := settled_step since since' goes found found' (Task.ended_of_settles settles)
      exact same ▸ settles
    · cases found.symm.trans found'
      obtain ⟨settles, database, name, filled⟩ := Task.checkpoint_of_mem_deliveries called
      have table := (task.update_sameKind action reported).table
      unfold Task.checkpointDeliveries
      rw [settles, table, database, name]
      dsimp only
      rw [if_neg fun empty => filled (List.isEmpty_iff.mp empty)]
      exact List.mem_singleton.mpr rfl
  · obtain ⟨task, found, on⟩ := origin_of_found goes sound found'
    cases ended : task.progress.isTerminal with
    | false => exact .inl (step.calls found found' ended settles)
    | true =>
      rw [settled_step since since' goes found found' ended] at settles
      have writes : after.writesOf delivery = task.writesOf delivery := by
        have store : after.store = task.store := on.kind.store
        unfold Task.writesOf
        rw [store]
      rw [writes]
      rcases recorded.kept number task found delivery settles with pending | old
      · refine (kept_or_written moved pending found).imp id fun made call member => ?_
        exact List.mem_append_right _ (made call member)
      · exact .inr fun call member => List.mem_append_left _ (old call member)
  · rcases List.mem_append.mp member with old | new
    · obtain ⟨number, task, found, explains⟩ := recorded.explained call old beside
      obtain ⟨after, found', _⟩ := movesOn_of_found goes sound found
      exact ⟨number, after, found', explains_step since since' goes found found' explains⟩
    · obtain ⟨number, task, _, found, served⟩ := serves_of_beside moved new beside
      obtain ⟨after, found', _⟩ := movesOn_of_found goes sound found
      refine ⟨number, after, found', explains_step since since' goes found found' ?_⟩
      cases served with
      | @delivery store write known pending =>
        cases write with
        | failure => cases beside
        | status database name partitions status =>
          exact .settled (recorded.promised number database name partitions status pending task found)
      | mismatch _ asked =>
        have queued : ⟨number, .finalVerification, .queued⟩ ∈ run.ledger.custody.items :=
          Ledger.mem_items.mpr (.inr ⟨_, asked, rfl⟩)
        obtain ⟨task', known, _, cleared⟩ := sound.placed _ queued
        cases (custody_of_found found).symm.trans known
        refine .differing cleared fun partition member => ?_
        obtain ⟨mine, differs⟩ := List.mem_filter.mp member
        exact ⟨mine, by simpa using differs⟩

/-- What holds of a run of fresh tasks, and of its writes, all along. -/
structure Booked (run : Run σ) (allows : Brief → Execution → Prop) (verifiesItself : Bool)
    (origin : Run σ) (acts : List Act) (written : List (StoreRef × Write)) : Prop where
  steady : run.Steady allows verifiesItself origin acts
  divided : run.ledger.custody.Divided acts
  recorded : run.Recorded written

theorem Booked.step {move : Move} (booked : run.Booked allows verifiesItself origin acts written)
    (keeps : Keeps engines verifiesItself allows) (moved : run.step engines move = some next) :
    next.Booked allows verifiesItself origin (acts ++ run.acts engines move)
      (written ++ run.writes move) := by
  obtain ⟨steady, divided, recorded⟩ := booked
  have later := steady.step keeps moved
  have goes := steady.healthy.goes moved
  exact ⟨later, goes.divided steady.certain.coherent divided, recorded.step steady later moved⟩

/-- **Some moves keep what is recorded right.** -/
theorem Booked.steps {moves : List Move}
    (booked : run.Booked allows verifiesItself origin acts written)
    (keeps : Keeps engines verifiesItself allows) (moved : run.steps engines moves = some last) :
    last.Booked allows verifiesItself origin (acts ++ run.trace engines moves)
      (written ++ run.allWrites engines moves) := by
  have keep : ∀ acts written (run : Run σ) move next,
      run.Booked allows verifiesItself origin acts written →
      run.step engines move = some next →
      next.Booked allows verifiesItself origin (acts ++ run.acts engines move)
        (written ++ run.writes move) :=
    fun _ _ _ _ _ booked moved => booked.step keeps moved
  exact steps_hold keep booked moved

/-- Before the first move nothing is recorded, and nothing is to be. -/
theorem booked_begins {scheduler : Scheduler} {tasks : List Task} {listed : List Nat} {state : σ}
    (begins : scheduler.Begins tasks listed state run) (fresh : ∀ task ∈ tasks, task.Fresh)
    (allows : Brief → Execution → Prop) :
    run.Booked allows scheduler.verifiesItself run [] [] where
  steady := steady_begins begins fresh allows
  divided _ _ _ _ executed := by cases executed
  recorded := by
    refine ⟨fun number _ _ _ _ pending => ?_, fun number task found delivery settles => ?_,
      fun _ member => by cases member⟩
    · exact absurd pending begins.not_pending
    · have known := custody_of_found found
      rw [Campaign.custody_begins begins] at known
      obtain ⟨initial, among, same⟩ := Option.map_eq_some_iff.mp known
      have ended : task.deaf.progress.isTerminal = true := Task.ended_of_settles settles
      rw [← same] at ended
      have ended : initial.progress.isTerminal = true := ended
      rw [(fresh initial (List.mem_of_getElem? among)).progress] at ended
      cases ended

/-- **In the end, what every task settles was recorded.** -/
theorem Booked.kept (booked : run.Booked allows verifiesItself origin acts written)
    (past : run.isOver = true) (found : run.tasks[number]? = some task) {delivery : Delivery}
    (settles : delivery ∈ task.checkpointDeliveries) :
    ∀ call ∈ task.writesOf delivery, call ∈ written := by
  refine (booked.recorded.kept number task found delivery settles).resolve_left fun pending => ?_
  have joining := booked.steady.healthy.joining
  rcases pending with planned | ⟨job, held, _⟩
  · have agenda : run.agenda = [] := List.isEmpty_iff.mp past
    have planned : .deliver number delivery ∈ run.agenda := planned
    rw [agenda] at planned
    cases planned
  · have jobs : run.ledger.jobs = 0 :=
      Run.jobs_of_empty fun engine => (joining.empty past engine).2
    rw [jobs] at held
    cases held

end Run

end TableMigration
