/-
**What a run writes on the partitions of a task.**

* `Ledger.owed` — the writes on partitions that are still to be made for a task. Whoever makes a
  delivery makes a write that was owed, and a report owes what the end of its task settles
  (`Ledger.Step.owed`, `Run.step_posts`); besides, a worker records what a final verification finds to
  differ.
* `Run.Posted` — the writes that a run with fixed outcomes has made on partitions are dealt out to its
  tasks. Those of a task, with what is owed to it, are what its end settles and what was found to
  differ. Every move keeps to it (`Run.Posted.step`).
-/

import Mathlib.Data.Multiset.Bind
import TableMigration.Proofs.Fates
import TableMigration.Proofs.Settlement

namespace TableMigration

/-! ### What a delivery writes on partitions -/

/-- The writes on partitions among some writes. -/
def Write.beside (calls : List (StoreRef × Write)) : List (StoreRef × Write) :=
  calls.filter fun call => !call.2.isOnRow

/-- The writes on partitions that a delivery makes on a store. -/
def Delivery.posts (store : Option StoreRef) : Delivery → List (StoreRef × Write)
  | .signal _ => []
  | .write call => if call.isOnRow then [] else store.toList.map fun store => (store, call)

/-- The writes on partitions that are owed to a task by a duty. -/
def Duty.posts (store : Option StoreRef) (number : Nat) : Duty → List (StoreRef × Write)
  | .deliver other delivery => if other = number then delivery.posts store else []
  | _ => []

/-- The writes on partitions that are owed to a task by a job. -/
def Job.posts (store : Option StoreRef) (number : Nat) (job : Job) : List (StoreRef × Write) :=
  if job.task = number then job.stage.deliveries.flatMap (Delivery.posts store) else []

/-- Whether a duty makes no delivery. -/
def Duty.Silent (duty : Duty) : Prop :=
  ∀ number delivery, duty ≠ .deliver number delivery

theorem Duty.silent_of_rank {duty : Duty} (late : 1 ≤ duty.rank) : duty.Silent := by
  rintro number delivery rfl
  exact absurd late (Nat.not_succ_le_zero 0)

namespace Task

variable {task after : Task} {action : Action} {reported : Progress}

/-- The writes by which the end of a task settles its partitions. -/
def posts (task : Task) : List (StoreRef × Write) :=
  task.checkpointDeliveries.flatMap (Delivery.posts task.store)

theorem beside_writesOf (task : Task) (delivery : Delivery) :
    Write.beside (task.writesOf delivery) = delivery.posts task.store := by
  cases delivery with
  | signal => rfl
  | write write =>
    unfold Write.beside writesOf Delivery.posts
    dsimp only
    split
    · rename_i row
      exact List.filter_eq_nil_iff.mpr fun call member => by
        obtain ⟨_, _, rfl⟩ := List.mem_map.mp member
        simp [row]
    · rename_i beside
      exact List.filter_eq_self.mpr fun call member => by
        obtain ⟨_, _, rfl⟩ := List.mem_map.mp member
        simp [beside]

/-- A failure is told, or written on the row of the table. -/
theorem posts_failureDeliveries (task : Task) (store : Option StoreRef) :
    task.failureDeliveries.flatMap (Delivery.posts store) = [] := by
  unfold failureDeliveries
  split
  · split <;> rfl
  · rfl

theorem posts_of_going (going : task.progress.isTerminal = false) : task.posts = [] := by
  unfold posts
  rw [checkpointDeliveries_of_going going]
  rfl

/-- **A report calls for what the end of the task settles**, if it ends the task. -/
theorem posts_update (settled : task.progress.isTerminal = true →
      (task.update action reported).task.checkpointDeliveries = task.checkpointDeliveries) :
    (task.update action reported).deliveries.flatMap (Delivery.posts task.store) ++ task.posts =
      (task.update action reported).task.posts := by
  have store := (task.update_sameKind action reported).store
  rcases task.update_answers action reported with ⟨same, _, unchanged⟩ | ⟨changed, _, calls⟩
  · rw [unchanged, List.flatMap_nil, List.nil_append]
    cases ended : task.progress.isTerminal with
    | true =>
      unfold posts
      rw [settled ended, store]
    | false => rw [posts_of_going ended, posts_of_going (same ▸ ended)]
  · have going : task.progress.isTerminal = false := by
      by_contra ended
      exact changed (progress_update_of_ended (Bool.not_eq_false _ ▸ ended))
    rw [calls, List.flatMap_append, posts_failureDeliveries, List.nil_append, posts_of_going going,
      List.append_nil]
    unfold posts
    rw [store]

end Task

/-! ### What is owed -/

namespace Ledger

variable {store : Option StoreRef} {number : Nat} {ledger next : Ledger}
  {answers : Nat → Task → Action → Execution → Prop} {acts : List Act} {task after : Task}

/-- The writes on partitions that are still to be made for a task. -/
def owed (store : Option StoreRef) (number : Nat) (agenda : List Duty) (jobs : Multiset Job) :
    Multiset (StoreRef × Write) :=
  (agenda.flatMap (Duty.posts store number) : Multiset (StoreRef × Write)) +
    jobs.bind fun job => (job.posts store number : Multiset (StoreRef × Write))

variable {agenda duties rest : List Duty} {jobs : Multiset Job}

theorem owed_append (duties rest : List Duty) (jobs : Multiset Job) :
    owed store number (duties ++ rest) jobs =
      (duties.flatMap (Duty.posts store number) : Multiset (StoreRef × Write)) +
        owed store number rest jobs := by
  unfold owed
  rw [List.flatMap_append, ← Multiset.coe_add, add_assoc]

theorem owed_cons (duty : Duty) (rest : List Duty) (jobs : Multiset Job) :
    owed store number (duty :: rest) jobs =
      (duty.posts store number : Multiset (StoreRef × Write)) + owed store number rest jobs := by
  have split : owed store number ([duty] ++ rest) jobs = _ := owed_append [duty] rest jobs
  rwa [List.flatMap_singleton] at split

theorem owed_job (agenda : List Duty) (job : Job) (jobs : Multiset Job) :
    owed store number agenda (job ::ₘ jobs) =
      (job.posts store number : Multiset (StoreRef × Write)) + owed store number agenda jobs := by
  unfold owed
  rw [Multiset.cons_bind, add_left_comm]

/-- Duties that make no deliveries owe nothing. -/
theorem posts_silent (silent : ∀ duty ∈ duties, duty.Silent) :
    duties.flatMap (Duty.posts store number) = [] := by
  refine List.flatMap_eq_nil_iff.mpr fun duty member => ?_
  cases duty with
  | deliver other delivery => exact absurd rfl (silent _ member other delivery)
  | _ => rfl

theorem owed_silent (silent : ∀ duty ∈ agenda, duty.Silent) : owed store number agenda 0 = 0 := by
  unfold owed
  rw [posts_silent silent, Multiset.zero_bind, Multiset.coe_nil, add_zero]

theorem posts_follow (other : Nat) (changed : Option Progress) (deliveries : List Delivery) :
    (Duty.follow other changed deliveries).flatMap (Duty.posts store number) =
      if other = number then deliveries.flatMap (Delivery.posts store) else [] := by
  have announces : (changed.toList.map (Duty.announce other)).flatMap (Duty.posts store number) =
      [] := by
    cases changed <;> rfl
  unfold Duty.follow
  rw [List.flatMap_append, announces, List.append_nil, List.flatMap_map]
  by_cases mine : other = number
  · rw [if_pos mine]
    refine List.flatMap_congr fun delivery _ => ?_
    exact if_pos mine
  · rw [if_neg mine]
    exact List.flatMap_eq_nil_iff.mpr fun delivery _ => if_neg mine

/-- What is called for in place of a duty is owed from then on. -/
theorem owed_replan {duty : Duty} {first last : List (StoreRef × Write)}
    (balance : duties.flatMap (Duty.posts store number) ++ first = last) :
    (duty.posts store number : Multiset (StoreRef × Write)) +
        owed store number (duties ++ rest) jobs + first =
      owed store number (duty :: rest) jobs + last := by
  rw [owed_append, owed_cons, ← balance, ← Multiset.coe_add]
  ac_rfl

/-- What a worker has done with a job is owed no longer. -/
theorem owed_work {job later : Job} {others : Multiset Job}
    {made first last found : Multiset (StoreRef × Write)}
    (balance : made + (later.posts store number : Multiset (StoreRef × Write)) + first =
      (job.posts store number : Multiset (StoreRef × Write)) + last + found) :
    made + owed store number agenda (later ::ₘ others) + first =
      owed store number agenda (job ::ₘ others) + last + found := by
  rw [owed_job, owed_job]
  calc made + (↑(later.posts store number) + owed store number agenda others) + first
      = (made + ↑(later.posts store number) + first) + owed store number agenda others := by ac_rfl
    _ = (↑(job.posts store number) + last + found) + owed store number agenda others := by
      rw [balance]
    _ = _ := by ac_rfl

/-- A report calls for what the end of its task settles, and for nothing of another task. -/
theorem posts_reported {other : Nat} {action : Action} {reported : Progress} {old : Task}
    (silent : ∀ duty ∈ duties, duty.Silent) (known : ledger.tasks[other]? = some old)
    (tasks : next.tasks = ledger.tasks.set other (old.update action reported).task)
    (found : ledger.tasks[number]? = some task) (found' : next.tasks[number]? = some after)
    (settled : task.progress.isTerminal = true →
      after.checkpointDeliveries = task.checkpointDeliveries) :
    (Duty.follow other (old.update action reported).changed
        (old.update action reported).deliveries ++ duties).flatMap (Duty.posts task.store number) ++
      task.posts = after.posts := by
  rw [List.flatMap_append, posts_silent silent, List.append_nil, posts_follow]
  rw [tasks] at found'
  by_cases mine : other = number
  · subst mine
    cases found.symm.trans known
    rw [List.getElem?_set_self (List.getElem?_eq_some_iff.mp found).1] at found'
    cases found'
    rw [if_pos rfl]
    exact Task.posts_update settled
  · rw [List.getElem?_set_ne mine, found] at found'
    cases found'
    rw [if_neg mine, List.nil_append]

/-- Who listens to a task makes no difference to what its end settles. -/
theorem posts_unlisten {listed : List Nat} (found : ledger.tasks[number]? = some task)
    (found' : (listed.foldl Task.unlistenTo ledger.tasks)[number]? = some after) :
    after.posts = task.posts := by
  have deaf := Task.deaf_unlisten listed ledger.tasks number
  rw [found, found'] at deaf
  have equal : after.deaf = task.deaf := Option.some.inj deaf
  have same : after.deaf.posts = task.deaf.posts := congrArg Task.posts equal
  exact same

/-- **The scheduling thread makes a delivery that was owed, or owes what a report calls for.** -/
theorem Step.owed {duty : Duty} (step : ledger.Step answers acts next)
    (head : ledger.agenda = duty :: rest) (turns : next.agenda ≠ ledger.agenda)
    (found : ledger.tasks[number]? = some task) (found' : next.tasks[number]? = some after)
    (settled : task.progress.isTerminal = true →
      after.checkpointDeliveries = task.checkpointDeliveries) :
    (duty.posts task.store number : Multiset (StoreRef × Write)) +
        Ledger.owed task.store number next.agenda next.jobs + task.posts =
      Ledger.owed task.store number ledger.agenda ledger.jobs + after.posts := by
  -- where the task stays as it was, nothing is called for
  have still : ∀ duties : List Duty, (∀ duty ∈ duties, duty.Silent) →
      next.tasks[number]? = ledger.tasks[number]? →
      duties.flatMap (Duty.posts task.store number) ++ task.posts = after.posts := by
    intro duties silent tasks
    rw [tasks, found] at found'
    cases found'
    rw [posts_silent silent, List.nil_append]
  have late : ∀ duties : List Duty, (∀ duty ∈ duties, 1 ≤ duty.rank) →
      next.tasks[number]? = ledger.tasks[number]? →
      duties.flatMap (Duty.posts task.store number) ++ task.posts = after.posts :=
    fun duties late => still duties fun duty member => Duty.silent_of_rank (late duty member)
  -- what is called for takes the place of the duty
  have replan : ∀ duties : List Duty, next.agenda = duties ++ rest → next.jobs = ledger.jobs →
      duties.flatMap (Duty.posts task.store number) ++ task.posts = after.posts →
      (duty.posts task.store number : Multiset (StoreRef × Write)) +
          Ledger.owed task.store number next.agenda next.jobs + task.posts =
        Ledger.owed task.store number ledger.agenda ledger.jobs + after.posts := by
    intro duties agenda jobs balance
    rw [agenda, jobs, head]
    exact owed_replan balance
  cases step with
  | beginPass head' =>
    cases head.symm.trans head'
    exact replan _ rfl rfl
      (late _ (fun _ member => Nat.le_of_succ_le (Duty.le_rank_pass member)) rfl)
  | lookEnded head' | absent head' | judgeNothing head' | judge head' | aside head' | countIn head'
  | countOut head' =>
    cases head.symm.trans head'
    exact replan [] rfl rfl (still [] (List.forall_mem_nil _) rfl)
  | lookOn head' =>
    cases head.symm.trans head'
    exact replan [_] rfl rfl (late [_] (List.forall_mem_singleton.mpr (Nat.le_refl 1)) rfl)
  | collect head' found =>
    cases head.symm.trans head'
    refine replan _ rfl rfl (still _ (fun duty member number delivery => ?_) rfl)
    obtain ⟨_, _, rfl⟩ := List.mem_map.mp member
    nofun
  | @dispatch _ other action _ head' known =>
    cases head.symm.trans head'
    have silent : ∀ duty ∈ [Duty.countIn, .submit other action], duty.Silent := by
      simp [Duty.Silent]
    exact replan _ rfl rfl (posts_reported silent known rfl found found' settled)
  | @submit _ other action old head' =>
    cases head.symm.trans head'
    have called : (⟨other, action, .call⟩ : Job).posts task.store number = [] := ite_self []
    have same : after.posts = task.posts := (late [] (List.forall_mem_nil _) rfl).symm
    rw [head, same, owed_job, called, owed_cons]
    exact congrArg (· + _) (congrArg (_ + ·) (zero_add _))
  | turnAway head' =>
    cases head.symm.trans head'
    exact replan [_, _] rfl rfl (still [_, _] (by simp [Duty.Silent]) rfl)
  | refuse head' known =>
    cases head.symm.trans head'
    have balance := posts_reported (List.forall_mem_nil _) known rfl found found' settled
    rw [List.append_nil] at balance
    exact replan _ rfl rfl balance
  | testDone head' =>
    cases head.symm.trans head'
    exact replan _ rfl rfl
      (late _ (fun duty member => (Duty.rank_closing member).symm ▸ by decide) rfl)
  | testStuck head' =>
    cases head.symm.trans head'
    exact replan _ rfl rfl
      (late _ (fun duty member => (Duty.rank_stuck member).symm ▸ by decide) rfl)
  | testOn head' | wait head' =>
    cases head.symm.trans head'
    exact replan [_] rfl rfl (late [_] (by simp [Duty.rank]) rfl)
  | unlisten head' listed =>
    cases head.symm.trans head'
    exact replan [] rfl rfl (posts_unlisten found found').symm
  | take | execute | keepCounts | keepValidation | report | follow | complete | leave =>
    exact absurd rfl turns

end Ledger

namespace Task

variable {task after : Task} {store : Option StoreRef}

/-- A change that leaves a task going, or what its end settles, makes no difference. -/
theorem posts_of_kept (kind : after.SameKind task) (progress : after.progress = task.progress)
    (settled : task.progress.isTerminal = true →
      after.checkpointDeliveries = task.checkpointDeliveries) : after.posts = task.posts := by
  cases ended : task.progress.isTerminal with
  | true =>
    unfold posts
    rw [settled ended, kind.store]
  | false => rw [posts_of_going ended, posts_of_going (progress ▸ ended)]

/-- What differs is recorded on partitions. -/
theorem beside_mismatchWrites (task : Task) (store : Option StoreRef) :
    Write.beside (task.mismatchWrites store) = task.mismatchWrites store := by
  refine List.filter_eq_self.mpr fun call member => ?_
  unfold mismatchWrites at member
  split at member
  · cases member
  · rename_i differ
    obtain ⟨_, _, rfl⟩ := List.mem_map.mp member
    have differing : task.validatePartitions.failed.isEmpty = false :=
      Bool.eq_false_iff.mpr fun empty => differ (.inr empty)
    simp [Write.isOnRow, differing]

/-- A task settles its partitions with one write at most. -/
theorem posts_cases (task : Task) : task.posts = [] ∨ ∃ store status partitions,
    task.checkpoint = some (status, partitions) ∧
      task.posts = [(store, .status task.table.database task.table.name partitions status)] := by
  unfold posts checkpointDeliveries
  cases settles : task.checkpoint with
  | none => exact .inl rfl
  | some settled =>
    obtain ⟨status, partitions⟩ := settled
    dsimp only
    split
    · exact .inl rfl
    · rename_i beside
      have row : (Write.status task.table.database task.table.name partitions status).isOnRow =
          false := Bool.eq_false_iff.mpr beside
      rw [List.flatMap_singleton, Delivery.posts, row, if_neg Bool.false_ne_true]
      cases task.store with
      | none => exact .inl rfl
      | some store => exact .inr ⟨store, status, partitions, rfl, rfl⟩

/-- A final verification records what differs with one write at most. -/
theorem mismatchWrites_cases (task : Task) (store : StoreRef) :
    task.mismatchWrites (some store) = [] ∨ task.table.isPartitioned = true ∧
      task.validatePartitions.failed ≠ [] ∧ task.mismatchWrites (some store) =
        [(store, .status task.table.database task.table.name task.validatePartitions.failed
          .failed)] := by
  unfold mismatchWrites
  split
  · exact .inl rfl
  · rename_i differ
    obtain ⟨partitioned, differing⟩ := not_or.mp differ
    exact .inr ⟨by simpa using partitioned, fun empty => differing (List.isEmpty_iff.mpr empty), rfl⟩

end Task

/-! ### What a move writes -/

namespace Run

variable {σ : Type} {engines : Engines σ} {run after next : Run σ} {number : Nat}
  {task changed : Task} {action : Action} {move : Move}

/-- The writes on partitions that a move makes for a task. -/
def posted (run : Run σ) (number : Nat) (move : Move) : List (StoreRef × Write) :=
  if run.client? move = some number then Write.beside (run.writes move) else []

/-- The writes on partitions that are still to be made for a task. -/
def owed (run : Run σ) (number : Nat) (task : Task) : Multiset (StoreRef × Write) :=
  Ledger.owed task.store number run.agenda run.ledger.jobs

/-- What a worker does in a stage touches its task only. -/
theorem Does.tasks {stage later : Stage} {other : Nat}
    (does : Does engines run number task action stage after later) (apart : number ≠ other) :
    after.tasks[other]? = run.tasks[other]? := by
  have aside : after.ledger = run.ledger → after.tasks[other]? = run.tasks[other]? :=
    fun same => congrArg (fun ledger : Ledger => ledger.tasks[other]?) same
  cases does with
  | call => exact aside (aside_callEngine engines run number task action).ledger
  | keepCounts | keepValidation | report => exact List.getElem?_set_ne apart
  | deliver execution changed delivery =>
    exact aside (aside_deliver engines run number delivery).ledger
  | delivered | countOut => rfl
  | announce execution changed => exact aside (aside_announce run number changed).ledger

/-- **A worker makes a delivery that was owed, or owes what a report calls for.** Besides, it records
what a final verification finds to differ. -/
theorem Does.posts {stage later : Stage}
    (does : Does engines run number task action stage after later)
    (itself : run.scheduler.verifiesItself = true) (found : run.tasks[number]? = some task)
    (found' : after.tasks[number]? = some changed)
    (settled : task.progress.isTerminal = true →
      changed.checkpointDeliveries = task.checkpointDeliveries) :
    (Write.beside (run.stageWrites task action stage) : Multiset (StoreRef × Write)) +
        (later.deliveries.flatMap (Delivery.posts task.store) : Multiset (StoreRef × Write)) +
        task.posts =
      (stage.deliveries.flatMap (Delivery.posts task.store) : Multiset (StoreRef × Write)) +
        changed.posts + (if stage = .call ∧ action = .finalVerification then
          task.mismatchWrites run.scheduler.store else [] : List (StoreRef × Write)) := by
  have aside : after.ledger = run.ledger → changed = task := by
    intro same
    have tasks : after.tasks = run.tasks := congrArg Ledger.tasks same
    rw [tasks, found] at found'
    exact (Option.some.inj found').symm
  have replaced : ∀ {new : Task}, (run.tasks.set number new)[number]? = some changed →
      changed = new := by
    intro new known
    rw [List.getElem?_set_self (List.getElem?_eq_some_iff.mp found).1] at known
    exact (Option.some.inj known).symm
  -- but for the calls, all is told by the deliveries and by what the end of the task settles
  have balance : ∀ {made owing owed : List (StoreRef × Write)}, stage ≠ .call →
      made ++ owing ++ task.posts = owed ++ changed.posts →
      (made : Multiset (StoreRef × Write)) + owing + task.posts =
        (owed : Multiset (StoreRef × Write)) + changed.posts +
          (if stage = .call ∧ action = .finalVerification then
            task.mismatchWrites run.scheduler.store else [] : List (StoreRef × Write)) := by
    intro made owing owed other same
    rw [if_neg fun both => other both.1, Multiset.coe_nil, add_zero]
    exact congrArg _ same
  cases does with
  | call =>
    obtain rfl := aside (aside_callEngine engines run number task action).ledger
    have found : Write.beside (run.stageWrites changed action .call) =
        if Stage.call = .call ∧ action = .finalVerification then
          changed.mismatchWrites run.scheduler.store else [] := by
      have checks : action.engine = .validation ↔ action = .finalVerification :=
        ⟨Action.engine_eq_validation, fun same => same ▸ rfl⟩
      simp only [stageWrites, itself, and_true, true_and, checks]
      split
      · exact changed.beside_mismatchWrites _
      · rfl
    rw [found]
    have undelivered : Stage.call.deliveries = [] := rfl
    have undelivered' : (Stage.keepCounts
        (run.callEngine engines number changed action).1).deliveries = [] := rfl
    rw [undelivered, undelivered', List.flatMap_nil, Multiset.coe_nil, add_zero, zero_add, add_comm]
  | keepCounts execution =>
    obtain rfl := replaced found'
    refine balance nofun ?_
    rw [Task.posts_of_kept (task.withCounts_sameKind action execution)
      (task.progress_withCounts action execution) settled]
    rfl
  | keepValidation execution =>
    obtain rfl := replaced found'
    refine balance nofun ?_
    rw [Task.posts_of_kept (task.withValidation_sameKind execution)
      (task.progress_withValidation execution) settled]
    rfl
  | report execution =>
    obtain rfl := replaced found'
    exact balance nofun (Task.posts_update settled)
  | deliver execution told delivery rest =>
    obtain rfl := aside (aside_deliver engines run number delivery).ledger
    refine balance nofun ?_
    have made : run.stageWrites changed action
        (.deliver execution told (delivery :: rest)) = changed.writesOf delivery := rfl
    rw [made, Task.beside_writesOf]
    rfl
  | delivered =>
    obtain rfl := aside rfl
    exact balance nofun rfl
  | countOut =>
    cases found.symm.trans found'
    exact balance nofun rfl
  | announce execution told =>
    obtain rfl := aside (aside_announce run number told).ledger
    exact balance nofun rfl

theorem posted_advance {duty : Duty} {rest : List Duty} (head : run.agenda = duty :: rest)
    (found : run.tasks[number]? = some task) :
    run.posted number .advance = duty.posts task.store number := by
  unfold posted
  rw [writes_advance head]
  cases duty with
  | deliver other delivery =>
    have client : run.client? .advance = some other := by
      rw [client?, head]
      rfl
    rw [client]
    by_cases mine : other = number
    · subst mine
      rw [if_pos rfl, Duty.posts, if_pos rfl, ← Task.beside_writesOf]
      simp only [dutyWrites, found, Option.toList_some, List.flatMap_singleton]
    · rw [if_neg fun same => mine (Option.some.inj same), Duty.posts, if_neg mine]
  | _ =>
    have client : run.client? .advance = none := by
      rw [client?, head]
      rfl
    rw [client]
    exact if_neg (Option.some_ne_none number).symm

/-- The scheduling thread executes nothing. -/
theorem executes_advance (moved : run.advance engines = some next) {act : Act}
    (member : act ∈ run.acts engines .advance) : ¬ act.executes number action = true := by
  -- so this is a step whatever an engine may answer
  have step : run.ledger.Step (fun _ _ _ _ => False) (run.acts engines .advance) next.ledger :=
    advance_ledger moved
  generalize run.acts engines .advance = acts, next.ledger = after at step member
  cases step with
  | execute _ _ answered => exact answered.elim
  | judge =>
    obtain ⟨_, _, rfl⟩ := List.mem_map.mp member
    nofun
  | lookEnded | dispatch | turnAway =>
    cases List.mem_singleton.mp member
    nofun
  | _ => cases member

/-- A call for the final verification of a task executes it. -/
theorem executes_call {other : Nat} {stage : Stage} {execution : Execution}
    (found : List (StoreRef × Write)) :
    (if stage = .call then [Act.executed other action execution] else []).countP
        (Act.executes number .finalVerification) • (found : Multiset (StoreRef × Write)) =
      (if other = number ∧ stage = .call ∧ action = .finalVerification then found else [] :
        List (StoreRef × Write)) := by
  by_cases calls : stage = .call
  · by_cases checks : other = number ∧ action = .finalVerification
    · have all : other = number ∧ stage = .call ∧ action = .finalVerification :=
        ⟨checks.1, calls, checks.2⟩
      have counts : (Act.executed other action execution).executes number .finalVerification := by
        simp [Act.executes, checks]
      rw [if_pos all, if_pos calls, List.countP_singleton, if_pos counts, one_nsmul]
    · have not_all : ¬ (other = number ∧ stage = .call ∧ action = .finalVerification) :=
        fun all => checks ⟨all.1, all.2.2⟩
      rw [if_neg not_all, if_pos calls, List.countP_singleton]
      simp [Act.executes, checks]
  · rw [if_neg calls, if_neg fun all => calls all.2.1]
    simp

/-- What a worker does is a matter of the task of its job. -/
theorem work_posts {engine : Engine} {place : Nat}
    (moved : run.work engines engine place = some next)
    (itself : run.scheduler.verifiesItself = true) (found : run.tasks[number]? = some task)
    (found' : next.tasks[number]? = some changed)
    (settled : task.progress.isTerminal = true →
      changed.checkpointDeliveries = task.checkpointDeliveries) :
    (run.posted number (.work engine place) : Multiset (StoreRef × Write)) +
        next.owed number task + task.posts =
      run.owed number task + changed.posts +
        (run.acts engines (.work engine place)).countP (Act.executes number .finalVerification) •
          (task.mismatchWrites run.scheduler.store : Multiset (StoreRef × Write)) := by
  obtain ⟨⟨_, _, ⟨other, action, stage⟩⟩, worker, others, worked, known, jobs, goes⟩ :=
    jobs_work moved
  dsimp only at known jobs goes
  have client : run.client? (.work engine place) = some other := congrArg (Option.map _) worked
  have writes : run.writes (.work engine place) = run.stageWrites worker action stage := by
    simp only [Run.writes, worked, known, Option.toList_some, List.flatMap_singleton]
  have agenda : next.agenda = run.agenda := by
    have moved : run.step engines (.work engine place) = some next := moved
    exact agenda_step moved (by rintro ⟨⟩)
  unfold posted owed
  rw [client, writes, acts_work worked known, agenda, jobs, executes_call]
  dsimp only
  rcases goes with ⟨after, later, does, ledger⟩ | ⟨execution, rfl, ledger⟩
  · have tasks : next.tasks = after.tasks := congrArg Ledger.tasks ledger
    rw [tasks] at found'
    rw [ledger]
    refine Ledger.owed_work ?_
    unfold Job.posts
    by_cases mine : other = number
    · subst mine
      cases found.symm.trans known
      have balance := does.posts itself found found' settled
      rw [if_pos rfl, if_pos rfl, if_pos rfl]
      simp only [true_and]
      exact balance
    · have apart : ¬ some other = some number := fun same => mine (Option.some.inj same)
      rw [does.tasks mine, found] at found'
      cases found'
      rw [if_neg apart, if_neg mine, if_neg mine, if_neg fun all => mine all.1]
      simp only [Multiset.coe_nil, add_zero]
  · have tasks : next.tasks = run.tasks := congrArg Ledger.tasks ledger
    rw [tasks, found] at found'
    cases found'
    have posts : (⟨other, action, .leave execution⟩ : Job).posts task.store number = [] :=
      ite_self []
    have made : (if some other = some number then
        Write.beside (run.stageWrites worker action (.leave execution)) else []) = [] := ite_self []
    have calls : ¬ (other = number ∧ Stage.leave execution = .call ∧ action = .finalVerification) :=
      fun all => Stage.noConfusion all.2.1
    rw [ledger, Ledger.owed_job, posts, made, if_neg calls]
    exact (add_zero _).symm

/-- **A move makes a delivery that was owed to a task, or owes what a report calls for**, or records what
the final verification of the task finds to differ. -/
theorem step_posts (moved : run.step engines move = some next)
    (itself : run.scheduler.verifiesItself = true) (found : run.tasks[number]? = some task)
    (found' : next.tasks[number]? = some changed)
    (settled : task.progress.isTerminal = true →
      changed.checkpointDeliveries = task.checkpointDeliveries) :
    (run.posted number move : Multiset (StoreRef × Write)) + next.owed number task + task.posts =
      run.owed number task + changed.posts +
        (run.acts engines move).countP (Act.executes number .finalVerification) •
          (task.mismatchWrites run.scheduler.store : Multiset (StoreRef × Write)) := by
  cases move with
  | advance =>
    have step : run.ledger.Step (fun _ _ _ _ => True) (run.acts engines .advance) next.ledger :=
      advance_ledger moved
    obtain ⟨duty, rest, agenda, -⟩ := exists_of_advance moved
    have never : (run.acts engines .advance).countP (Act.executes number .finalVerification) = 0 :=
      List.countP_eq_zero.mpr fun act => executes_advance moved
    rw [posted_advance agenda found, never, zero_nsmul, add_zero]
    exact step.owed agenda (advance_turns moved) found found' settled
  | take engine =>
    have same : next.ledger = run.ledger := take_ledger moved
    have tasks : next.tasks = run.tasks := congrArg Ledger.tasks same
    rw [tasks, found] at found'
    cases found'
    have posted : run.posted number (.take engine) = [] :=
      if_neg (Option.some_ne_none number).symm
    have owed : next.owed number task = run.owed number task :=
      congrArg (fun ledger : Ledger => Ledger.owed task.store number ledger.agenda ledger.jobs) same
    have silent : run.acts engines (.take engine) = [] := rfl
    rw [posted, owed, silent, List.countP_nil, zero_nsmul, Multiset.coe_nil, zero_add, add_zero]
  | work engine place => exact work_posts moved itself found found' settled

/-! ### What a run writes -/

end Run

/-- Whether engines have one outcome for each action, the verification apart. -/
def Engines.Fixed {σ : Type} (engines : Engines σ) (outcome : Nat → Action → Execution) : Prop :=
  ∀ number task action state, action.engine ≠ .validation →
    (engines.call action.engine number task action state).1.result = outcome number action

namespace Run

variable {σ : Type} {engines : Engines σ} {run next : Run σ} {number : Nat}
  {task changed : Task} {move : Move}

variable {outcome : Nat → Action → Execution} {origin last : Run σ} {tasks : List Task}
  {listed : List Nat} {acts new : List Act} {store : StoreRef} {start : Custody}
  {written : List (StoreRef × Write)} {posts : Nat → List (StoreRef × Write)}
  {answers : Nat → Task → Action → Execution → Prop}

/-- Once everything below the final verification has succeeded, the division that it is going to find
stays as it is. -/
theorem division_step (sound : run.ledger.custody.Sound)
    (goes : run.ledger.custody.Step answers new next.ledger.custody)
    (found : run.tasks[number]? = some task) (found' : next.tasks[number]? = some changed)
    (cleared : task.deaf.Cleared .finalVerification) :
    changed.deaf.SameKind task.deaf ∧ changed.validatePartitions = task.validatePartitions := by
  obtain ⟨changed', known, on⟩ := movesOn_of_found goes sound found
  cases found'.symm.trans known
  have agrees : ∀ partition, changed.deaf.partitionAgrees partition =
      task.deaf.partitionAgrees partition :=
    goes.stays_counted sound (custody_of_found found) (custody_of_found found') cleared
  have division : changed.deaf.validatePartitions = task.deaf.validatePartitions :=
    Task.validatePartitions_congr on.kind.table agrees
  exact ⟨on.kind, division⟩

/-- What a final verification finds to differ stays so. -/
theorem mismatchWrites_step (since : Custody.Since start acts run.ledger.custody)
    (goes : run.ledger.custody.Step answers new next.ledger.custody)
    (found : run.tasks[number]? = some task) (found' : next.tasks[number]? = some changed)
    {act : Act} (member : act ∈ acts ++ new)
    (executes : act.executes number .finalVerification = true) (store : Option StoreRef) :
    changed.mismatchWrites store = task.mismatchWrites store := by
  have cleared : task.deaf.Cleared .finalVerification := by
    rcases List.mem_append.mp member with old | fresh
    · exact since.coherent.tells.cleared (custody_of_found found) old
        (Act.concerns_of_executes executes)
    · have admitted := since.coherent.admits goes act fresh
      cases act with
      | executed other action execution =>
        obtain ⟨rfl, rfl⟩ := of_decide_eq_true executes
        obtain ⟨task', known, _, cleared, _⟩ := admitted
        cases (custody_of_found found).symm.trans known
        exact cleared
      | _ => cases executes
  obtain ⟨kind, division⟩ := division_step since.coherent.sound goes found found' cleared
  have table : changed.table = task.table := kind.table
  unfold Task.mismatchWrites
  rw [division, table]

/-- What holds of a run with fixed outcomes, of its writes, and of those among them that it made on
partitions, by the tasks for which it made them. -/
structure Posted (run : Run σ) (outcome : Nat → Action → Execution) (origin : Run σ)
    (tasks : List Task) (listed : List Nat) (acts : List Act) (store : StoreRef)
    (written : List (StoreRef × Write)) (posts : Nat → List (StoreRef × Write)) : Prop where
  charged : run.Charged tasks listed acts store written
  fated : Custody.Fated outcome origin.ledger.custody acts run.ledger.custody
  itself : run.scheduler.verifiesItself = true
  balanced : ∀ number task initial, run.tasks[number]? = some task →
    origin.tasks[number]? = some initial →
    (posts number : Multiset (StoreRef × Write)) + run.owed number task + initial.posts =
      task.posts + acts.countP (Act.executes number .finalVerification) •
        (task.mismatchWrites (some store) : Multiset (StoreRef × Write))
  merged : ∀ number (shown : StoreRef × Write → Bool),
    (∀ other, other ≠ number → ∀ call ∈ posts other, shown call = false) →
    (Write.beside written).filter shown = (posts number).filter shown
  listed : ∀ number, posts number ≠ [] →
    number ∈ listed ∧ ∃ task, tasks[number]? = some task

/-- A move writes on partitions for one task at most, and this one is listed. -/
theorem client_of_posted (faithful : run.Faithful tasks listed acts)
    (moved : run.step engines move = some next) {call : StoreRef × Write}
    (member : call ∈ Write.beside (run.writes move)) :
    ∃ number, run.client? move = some number ∧ number ∈ listed ∧
      ∃ task, tasks[number]? = some task := by
  obtain ⟨made, row⟩ := List.mem_filter.mp member
  obtain ⟨number, task, client, found, served⟩ :=
    serves_of_beside moved made (by simpa using row)
  refine ⟨number, client, faithful.listed_of_has ?_⟩
  cases served with
  | delivery _ pending =>
    rcases pending with planned | ⟨job, held, rfl, _⟩
    · exact faithful.heeded.within.duties _ planned number rfl
    · exact faithful.heeded.within.jobs job held
  | mismatch _ asked => exact faithful.heeded.within.jobs _ asked

/-- Engines with one outcome for each action answer with it. -/
theorem answered_of_fixed (fixed : engines.Fixed outcome)
    (itself : run.scheduler.verifiesItself = true) (number : Nat) (task : Task) (action : Action) :
    Custody.Answered outcome number task action
      (run.callEngine engines number task action).1 := by
  refine ⟨(keeps_verified engines).answers run number task action itself, fun counting => ?_⟩
  unfold callEngine
  rw [if_neg fun both => counting both.1]
  exact fixed number task action run.state counting

/-- A task for which a move writes on partitions is listed. -/
theorem listed_of_posted (faithful : run.Faithful tasks listed acts)
    (moved : run.step engines move = some next) (made : run.posted number move ≠ []) :
    number ∈ listed ∧ ∃ task, tasks[number]? = some task := by
  have client : run.client? move = some number := by
    by_contra other
    exact made (if_neg other)
  obtain ⟨call, member⟩ := List.exists_mem_of_ne_nil _ made
  rw [posted, if_pos client] at member
  obtain ⟨other, client', mine⟩ := client_of_posted faithful moved member
  cases client.symm.trans client'
  exact mine

/-- What a move writes on partitions is what it writes for a task, if all else is left out. -/
theorem filter_posted (faithful : run.Faithful tasks listed acts)
    (moved : run.step engines move = some next) {shown : StoreRef × Write → Bool}
    (others : ∀ other, other ≠ number → ∀ call ∈ run.posted other move, shown call = false) :
    (Write.beside (run.writes move)).filter shown = (run.posted number move).filter shown := by
  by_cases mine : run.client? move = some number
  · rw [posted, if_pos mine]
  · rw [posted, if_neg mine]
    refine List.filter_eq_nil_iff.mpr fun call member shows => ?_
    obtain ⟨other, client, _⟩ := client_of_posted faithful moved member
    have apart : other ≠ number := fun same => mine (same ▸ client)
    have for_other : call ∈ run.posted other move := by
      rw [posted, if_pos client]
      exact member
    rw [others other apart call for_other] at shows
    cases shows

/-- **A move keeps what was written for a task balanced with what is owed to it.** -/
theorem Posted.balance {initial : Task}
    (posted : run.Posted outcome origin tasks listed acts store written posts)
    (goes : run.ledger.custody.Step answers (run.acts engines move) next.ledger.custody)
    (later : Custody.Since origin.ledger.custody (acts ++ run.acts engines move)
      next.ledger.custody)
    (moved : run.step engines move = some next) (found' : next.tasks[number]? = some changed)
    (began : origin.tasks[number]? = some initial) :
    ((posts number ++ run.posted number move : List (StoreRef × Write)) :
        Multiset (StoreRef × Write)) + next.owed number changed + initial.posts =
      changed.posts + (acts ++ run.acts engines move).countP
        (Act.executes number .finalVerification) •
          (changed.mismatchWrites (some store) : Multiset (StoreRef × Write)) := by
  have since := posted.fated.since
  obtain ⟨task, found, on⟩ := origin_of_found goes since.coherent.sound found'
  have before := posted.balanced number task initial found began
  have now := step_posts moved posted.itself found found' (settled_step since later goes found found')
  rw [posted.charged.known] at now
  have same : (acts ++ run.acts engines move).countP (Act.executes number .finalVerification) •
        (changed.mismatchWrites (some store) : Multiset (StoreRef × Write)) =
      (acts ++ run.acts engines move).countP (Act.executes number .finalVerification) •
        (task.mismatchWrites (some store) : Multiset (StoreRef × Write)) := by
    rcases Nat.eq_zero_or_pos ((acts ++ run.acts engines move).countP
      (Act.executes number .finalVerification)) with never | done
    · rw [never, zero_nsmul, zero_nsmul]
    · obtain ⟨act, member, executes⟩ := List.countP_pos_iff.mp done
      rw [mismatchWrites_step since goes found found' member executes]
  have kind : changed.store = task.store := on.kind.store
  have owed : next.owed number changed = next.owed number task := by
    unfold Run.owed
    rw [kind]
  rw [same, owed, List.countP_append, add_nsmul, ← Multiset.coe_add]
  generalize acts.countP (Act.executes number .finalVerification) •
    (task.mismatchWrites (some store) : Multiset (StoreRef × Write)) = once at before ⊢
  generalize (run.acts engines move).countP (Act.executes number .finalVerification) •
    (task.mismatchWrites (some store) : Multiset (StoreRef × Write)) = more at now ⊢
  refine add_right_cancel (b := (task.posts : Multiset (StoreRef × Write))) ?_
  calc ↑(posts number) + ↑(run.posted number move) + next.owed number task + ↑initial.posts +
        ↑task.posts
      = ↑(posts number) + ↑initial.posts +
          (↑(run.posted number move) + next.owed number task + ↑task.posts) := by ac_rfl
    _ = (↑(posts number) + run.owed number task + ↑initial.posts) + ↑changed.posts + more := by
      rw [now]
      ac_rfl
    _ = ↑changed.posts + (once + more) + ↑task.posts := by
      rw [before]
      ac_rfl

/-- **Every move keeps to what the tasks settle, and to what their final verifications find.** -/
theorem Posted.step (posted : run.Posted outcome origin tasks listed acts store written posts)
    (plain : ∀ number action, action.engine ≠ .validation →
      (outcome number action).validation = none)
    (fixed : engines.Fixed outcome) (moved : run.step engines move = some next) :
    next.Posted outcome origin tasks listed (acts ++ run.acts engines move) store
      (written ++ run.writes move) fun number => posts number ++ run.posted number move := by
  have faithful := posted.charged.faithful
  have goes : run.ledger.custody.Step (Custody.Answered outcome) (run.acts engines move)
      next.ledger.custody :=
    (step_ledger moved (answered_of_fixed fixed posted.itself)).custody (fun _ _ _ _ => id)
      faithful.healthy.orderly
  have later := posted.fated.step plain goes
  refine {
    charged := posted.charged.step moved
    fated := later
    itself := (step_frame moved).verifies.trans posted.itself
    balanced := fun number changed initial found' began =>
      posted.balance goes later.since moved found' began
    merged := fun number shown others => ?_
    listed := fun number seen => ?_ }
  · have old := posted.merged number shown fun other apart call member =>
      others other apart call (List.mem_append_left _ member)
    have new := filter_posted faithful moved fun other apart call member =>
      others other apart call (List.mem_append_right _ member)
    have both : Write.beside (written ++ run.writes move) =
        Write.beside written ++ Write.beside (run.writes move) := List.filter_append ..
    rw [both, List.filter_append, List.filter_append, old, new]
  · by_cases old : posts number = []
    · exact listed_of_posted faithful moved fun empty => seen (by rw [old, empty]; rfl)
    · exact posted.listed number old

/-- **So do some moves.** -/
theorem Posted.steps {moves : List Move}
    (posted : run.Posted outcome origin tasks listed acts store written posts)
    (plain : ∀ number action, action.engine ≠ .validation →
      (outcome number action).validation = none)
    (fixed : engines.Fixed outcome) (moved : run.steps engines moves = some last) :
    ∃ posts, last.Posted outcome origin tasks listed (acts ++ run.trace engines moves) store
      (written ++ run.allWrites engines moves) posts := by
  have keep : ∀ acts written (run : Run σ) move next,
      (∃ posts, run.Posted outcome origin tasks listed acts store written posts) →
      run.step engines move = some next →
      ∃ posts, next.Posted outcome origin tasks listed (acts ++ run.acts engines move) store
        (written ++ run.writes move) posts :=
    fun _ _ _ _ _ ⟨_, posted⟩ moved => ⟨_, posted.step plain fixed moved⟩
  exact steps_hold keep ⟨posts, posted⟩ moved

/-- Before the first move nothing was written, and nothing is owed. -/
theorem posted_begins {scheduler : Scheduler} {state : σ}
    (begins : scheduler.Begins tasks listed state run) (known : scheduler.store = some store)
    (itself : scheduler.verifiesItself = true) (kept : ∀ task ∈ tasks, task.WellKept)
    (honest : ∀ task ∈ tasks, task.Honest) (outcome : Nat → Action → Execution) :
    run.Posted outcome run tasks listed [] store [] fun _ => [] where
  charged := charged_begins begins known
  fated := by
    refine (begins.resting kept).fated fun number task found => ?_
    rw [Campaign.custody_begins begins] at found
    obtain ⟨heard, known, rfl⟩ := Option.map_eq_some_iff.mp found
    intro going
    obtain ⟨failed, succeeded⟩ := honest heard (List.mem_of_getElem? known) going
    exact ⟨failed, succeeded⟩
  itself := begins.verifies.trans itself
  balanced number task initial found began := by
    cases found.symm.trans began
    have jobs : run.ledger.jobs = 0 := begins.jobs
    have silent : ∀ duty ∈ run.agenda, duty.Silent := fun duty planned =>
      Duty.silent_of_rank (Nat.le_trans (by decide) (begins.agenda_late duty planned))
    rw [owed, jobs, Ledger.owed_silent silent, List.countP_nil, zero_nsmul, Multiset.coe_nil,
      add_zero, add_zero, zero_add]
  merged _ _ _ := rfl
  listed _ some := absurd rfl some

/-- In the end nothing is owed. -/
theorem owed_of_over (joining : run.Joining) (past : run.isOver = true) (number : Nat)
    (task : Task) : run.owed number task = 0 := by
  have agenda : run.agenda = [] := List.isEmpty_iff.mp past
  have jobs : run.ledger.jobs = 0 := jobs_of_empty fun engine => (joining.empty past engine).2
  rw [owed, agenda, jobs, Ledger.owed_silent (List.forall_mem_nil _)]

end Run

end TableMigration
