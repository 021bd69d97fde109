/-
**What a final verification writes.**

* `Task.divisionWrites` — the partitions of a task that differ, recorded as failed, and then those
  that agree, as the end of the task settles them. Every partition is in one of these writes, and
  none of them is empty (`Task.partitions_divisionWrites`).
* `Task.deliveries_verdict` — the report of a final verification calls for the second of them.
* `Task.due` — what the job of a final verification is still going to write, by its stage.
* `Custody.Checked` — what is known of tasks while a scheduler that verifies itself runs them,
  however far they had come before. Every step keeps to it.
-/

import TableMigration.Proofs.Confluence

namespace TableMigration

/-! ### The two parts of a task -/

/-- Who records partitions in the course of a final verification. -/
inductive Recorder where
  /-- The verification, as it compares the counts. -/
  | verification
  /-- The task, as it is told the result. -/
  | task
  deriving DecidableEq

/-- Who makes the writes of a job, by its stage. -/
def Stage.recorder : Stage → Recorder
  | .call => .verification
  | _ => .task

namespace Write

/-- The partitions that a write is about. -/
def partitions : Write → List Partition
  | .status _ _ partitions _ => partitions
  | .failure .. => []

variable (recorder : Recorder) (store : StoreRef) (database name : String)
  (recorded : List Partition) (status : Status)

/-- Where partitions are recorded only if there are any, no call is about none. -/
theorem partitions_ne_nil : ∀ call ∈ (if recorded = [] then [] else
    [(recorder, store, Write.status database name recorded status)]), call.2.2.partitions ≠ [] := by
  intro call member
  split at member
  · cases member
  · cases List.mem_singleton.mp member
    assumption

/-- All of them are recorded then. -/
theorem flatMap_partitions : ((if recorded = [] then [] else
    [(recorder, store, Write.status database name recorded status)]).flatMap fun call =>
      call.2.2.partitions) = recorded := by
  split
  · rename_i agreeing
    exact agreeing.symm
  · exact List.flatMap_singleton ..

end Write

namespace Task

variable {task : Task} {store : StoreRef}

/-- The status of the partitions that agree, once the final verification is over. -/
def matchStatus (task : Task) : Status :=
  if task.validatePartitions.failed.isEmpty then .succeeded else task.failureStatus

/-- The write by which a task records what agrees, at the end of its final verification. -/
def matchWrites (task : Task) (store : StoreRef) : List (StoreRef × Write) :=
  if task.validatePartitions.succeeded.isEmpty then []
  else [(store, .status task.table.database task.table.name task.validatePartitions.succeeded
    task.matchStatus)]

/-- What is written for both parts, and by whom. -/
def divisionWrites (task : Task) (store : StoreRef) : List (Recorder × StoreRef × Write) :=
  (task.mismatchWrites (some store)).map (Prod.mk .verification) ++
    (task.matchWrites store).map (Prod.mk .task)

/-- What differs comes first, and neither part is recorded if it is empty. -/
theorem divisionWrites_eq (store : StoreRef) (partitioned : task.table.isPartitioned = true) :
    task.divisionWrites store =
      (if task.validatePartitions.failed = [] then [] else
        [(.verification, store, .status task.table.database task.table.name
          task.validatePartitions.failed .failed)]) ++
      (if task.validatePartitions.succeeded = [] then [] else
        [(.task, store, .status task.table.database task.table.name
          task.validatePartitions.succeeded
          (if task.validatePartitions.failed = [] then .succeeded else task.failureStatus))]) := by
  unfold divisionWrites mismatchWrites matchWrites matchStatus
  rw [partitioned]
  simp only [Bool.not_true, Bool.false_eq_true, false_or, List.isEmpty_iff]
  split <;> split <;> rfl

/-- **Every partition is recorded once.** -/
theorem partitions_divisionWrites (store : StoreRef)
    (partitioned : task.table.isPartitioned = true) :
    (∀ call ∈ task.divisionWrites store, call.2.2.partitions ≠ []) ∧
      ((task.divisionWrites store).flatMap fun call => call.2.2.partitions).Perm
        task.table.partitions := by
  rw [divisionWrites_eq store partitioned]
  refine ⟨fun call member => ?_, ?_⟩
  · exact (List.mem_append.mp member).elim (Write.partitions_ne_nil _ _ _ _ _ _ call)
      (Write.partitions_ne_nil _ _ _ _ _ _ call)
  · rw [List.flatMap_append, Write.flatMap_partitions, Write.flatMap_partitions]
    refine List.perm_append_comm.trans ?_
    exact List.filter_append_perm task.partitionAgrees task.table.partitions

/-- Where no partition differs, all of them agree. -/
theorem succeeded_of_none_failed (agreeing : task.validatePartitions.failed = []) :
    task.validatePartitions.succeeded = task.table.partitions := by
  refine List.filter_eq_self.mpr fun partition member => ?_
  have agrees := List.filter_eq_nil_iff.mp agreeing partition member
  simpa using agrees

/-- A task whose last action runs goes on. -/
theorem Judged.going_of_running (judged : task.Judged)
    (running : task.actionProgress .finalVerification = some .running)
    (cleared : task.Cleared .finalVerification) : task.progress.isTerminal = false := by
  cases progress : task.progress with
  | new | running => rfl
  | succeeded => cases (judged.succeeded.mp progress).2 _ _ running
  | failed =>
    obtain ⟨bad, failed⟩ := judged.failed.mp progress
    by_cases isLast : bad = .finalVerification
    · cases running.symm.trans (isLast ▸ failed)
    · cases cleared bad (Custody.below_finalVerification isLast) .failed failed

/-- The failure of a task to which a scheduler listens is written nowhere. -/
theorem flatMap_writesOf_failure (heard : task.listener = some .scheduler)
    (writer : Task) : task.failureDeliveries.flatMap writer.writesOf = [] := by
  unfold failureDeliveries
  rw [heard]
  split <;> rfl

theorem flatMap_writesOf_checkpoint {status : Status} {partitions : List Partition} (writer : Task)
    (known : writer.store = some store) (settles : task.checkpoint = some (status, partitions)) :
    task.checkpointDeliveries.flatMap writer.writesOf = if partitions.isEmpty then []
      else [(store, .status task.table.database task.table.name partitions status)] := by
  unfold checkpointDeliveries
  rw [settles]
  dsimp only
  split
  · rfl
  · rw [List.flatMap_singleton, writesOf, known]
    rfl

/-- The verdict of a final verification ends the task. -/
theorem progress_update_verdict (judged : task.Judged)
    (running : task.actionProgress .finalVerification = some .running)
    (cleared : task.Cleared .finalVerification) (validation : Validation) :
    (task.update .finalVerification (verdict validation).progress).task.progress =
      (verdict validation).progress := by
  have going := judged.going_of_running running cleared
  rw [progress_verdict]
  split
  · have taken : task.Takes .finalVerification .succeeded := ⟨_, running, nofun, rfl⟩
    rw [progress_update_succeeded taken going]
    refine if_pos (Option.isNone_iff_eq_none.mpr (watermark_eq_none.mpr ?_))
    intro action progress found
    rw [actionProgress_update taken] at found
    split at found
    · exact (Option.some.inj found).symm
    · rename_i apart
      exact cleared action (Custody.below_finalVerification apart) progress found
  · exact progress_update_failed ⟨_, running, nofun, rfl⟩ going

/-- What a task settles once its final verification has come to its verdict. -/
theorem checkpoint_of_verdict (partitioned : task.table.isPartitioned = true)
    (kept : task.validation = some task.validatePartitions)
    (ended : task.progress = (verdict task.validatePartitions).progress)
    (verified : task.actionProgress .finalVerification =
      some (verdict task.validatePartitions).progress) :
    task.checkpoint = some (task.matchStatus, task.validatePartitions.succeeded) := by
  unfold matchStatus
  rw [progress_verdict] at ended verified
  split at ended
  · rename_i agreeing
    rw [checkpoint_of_succeeded ended, if_pos partitioned, if_pos agreeing,
      succeeded_of_none_failed (List.isEmpty_iff.mp agreeing)]
  · rename_i differing
    rw [if_neg differing] at verified
    rw [checkpoint_of_unverified ended verified, if_pos partitioned, if_neg differing, kept]
    rfl

theorem validatePartitions_update (task : Task) (action : Action) (reported : Progress) :
    (task.update action reported).task.validatePartitions = task.validatePartitions := by
  have table := (task.update_sameKind action reported).table
  refine validatePartitions_congr table fun partition => ?_
  unfold partitionAgrees countsAgree tableCounts
  rw [rowCounts_update, rowCounts_update, table]

/-- **The verdict of a final verification calls for the write on what agrees**, and for no other. -/
theorem deliveries_verdict (judged : task.Judged)
    (running : task.actionProgress .finalVerification = some .running)
    (cleared : task.Cleared .finalVerification) (heard : task.listener = some .scheduler)
    (kept : task.validation = some task.validatePartitions)
    (partitioned : task.table.isPartitioned = true) (known : task.store = some store) :
    (task.update .finalVerification (verdict task.validatePartitions).progress).deliveries.flatMap
      task.writesOf = task.matchWrites store := by
  have ended := progress_update_verdict judged running cleared task.validatePartitions
  have final : (verdict task.validatePartitions).progress.isTerminal = true := by
    rw [progress_verdict]
    split <;> rfl
  have taken : task.Takes .finalVerification (verdict task.validatePartitions).progress :=
    ⟨_, running, fun same => (by rw [← same] at final; cases final), rfl⟩
  generalize reports : (verdict task.validatePartitions).progress = reported at ended final taken ⊢
  have kind := task.update_sameKind .finalVerification reported
  have division := task.validatePartitions_update .finalVerification reported
  have settles := checkpoint_of_verdict (kind.table ▸ partitioned)
    (by rw [validation_update, division, kept]) (by rw [division, reports, ended])
    (by rw [actionProgress_update taken, if_pos rfl, division, reports])
  have changed : (task.update .finalVerification reported).task.progress ≠ task.progress := by
    intro same
    have going := judged.going_of_running running cleared
    rw [← same, ended, final] at going
    cases going
  obtain ⟨same, _⟩ | ⟨_, _, calls⟩ := task.update_answers .finalVerification reported
  · exact absurd same changed
  · have heard' := (task.listener_update .finalVerification reported).trans heard
    rw [calls, List.flatMap_append, flatMap_writesOf_failure heard' task, List.nil_append,
      flatMap_writesOf_checkpoint task known settles, division, kind.table]
    unfold matchWrites matchStatus
    rw [division, kind.failureStatus]

end Task

/-! ### What is known of a final verification -/

namespace Custody

variable {start custody next : Custody} {acts new : List Act} {number : Nat} {task : Task}
  {execution : Execution}

/-- What is known of honest tasks while a scheduler that verifies itself runs them. -/
structure Checked (start : Custody) (acts : List Act) (custody : Custody) : Prop where
  since : Since start acts custody
  verified : ∀ number action execution, .executed number action execution ∈ acts →
    ∀ task, custody.tasks number = some task → Brief.Verified (task.brief action) execution
  divided : custody.Divided acts

theorem Checked.step (checked : Checked start acts custody)
    (step : custody.Step (AnswersBy Brief.Verified) new next) :
    Checked start (acts ++ new) next where
  since := checked.since.step step fun _ _ _ _ answer => answer.1
  verified := step.answered checked.since.coherent checked.verified
  divided := step.divided checked.since.coherent checked.divided

section Executed

variable (checked : Checked start acts custody) (found : custody.tasks number = some task)
  (executed : .executed number .finalVerification execution ∈ acts)

include checked found executed

/-- The result of a final verification is its verdict on what was counted. -/
theorem Checked.verdict (partitioned : task.table.isPartitioned = true) :
    execution = Task.verdict task.validatePartitions :=
  (checked.verified number _ execution executed task found).verdict partitioned

/-- Before it is reported, the task has the division that was found. -/
theorem Checked.kept (partitioned : task.table.isPartitioned = true)
    (reporting : ⟨number, .finalVerification, .reporting execution⟩ ∈ custody.items) :
    task.validation = some task.validatePartitions := by
  have result : execution.validation = some task.validatePartitions := by
    rw [checked.verdict found executed partitioned]
    rfl
  refine (checked.divided number execution _ task executed result found).resolve_left ?_
  rintro ⟨station, either, member⟩
  have same := checked.since.coherent.sound.unique reporting member rfl
  rcases either with rfl | rfl <;> cases same

/-- **Once it has gone its way, it stands where its verdict left it.** -/
theorem Checked.progress (partitioned : task.table.isPartitioned = true)
    (gone : ∀ item ∈ custody.items, item.key ≠ (number, .finalVerification)) :
    task.actionProgress .finalVerification =
      some (Task.verdict task.validatePartitions).progress := by
  have since := checked.since
  obtain ⟨_, story, _, told⟩ := since.coherent.tells number .finalVerification
  have about := story.about_of_executed executed
  obtain ⟨task', known, ⟨progress, now, begun⟩, _⟩ := told (about ▸ List.cons_ne_nil _ _)
  cases found.symm.trans known
  have free := since.told _ executed number _ ((Act.concerns_self number _).2.2 execution)
  have explains := since.accounted number .finalVerification task progress free found now
  -- there is one execution, and no refusal
  have only : ∀ {other}, .executed number .finalVerification other ∈ acts → other = execution := by
    intro other member
    have about' := story.about_of_executed member
    rw [about] at about'
    cases about'
    rfl
  rw [now, ← checked.verdict found executed partitioned]
  cases progress with
  | new => exact absurd rfl begun
  | running =>
    obtain ⟨station, _, member⟩ := explains
    exact absurd rfl (gone _ member)
  | succeeded =>
    obtain ⟨other, member, result⟩ := explains
    rw [← only member, result]
  | failed =>
    rcases explains with refused | ⟨other, member, result⟩
    · exact absurd executed (story.not_executed_of_refused refused)
    · rw [← only member, result]

end Executed

end Custody

/-! ### What is left to be written -/

namespace Task

variable {task after : Task} {store : StoreRef}

/-- What the job of the final verification of a task is still going to write, by its stage. -/
def due (task : Task) (store : StoreRef) : Stage → List (Recorder × StoreRef × Write)
  | .call => task.divisionWrites store
  | .keepCounts _ | .keepValidation _ | .report _ =>
    (task.matchWrites store).map (Prod.mk .task)
  | .deliver _ _ deliveries => (deliveries.flatMap task.writesOf).map (Prod.mk .task)
  | .announce .. | .countOut _ | .leave _ => []

theorem matchWrites_congr (kind : after.SameKind task)
    (division : after.validatePartitions = task.validatePartitions) :
    after.matchWrites store = task.matchWrites store := by
  unfold matchWrites matchStatus
  rw [division, kind.table, kind.failureStatus]

/-- A task with the same division writes the same. -/
theorem divisionWrites_congr (kind : after.SameKind task)
    (division : after.validatePartitions = task.validatePartitions) :
    after.divisionWrites store = task.divisionWrites store := by
  unfold divisionWrites mismatchWrites
  rw [matchWrites_congr kind division, division, kind.table]

/-- So does its job. -/
theorem due_congr (kind : after.SameKind task)
    (division : after.validatePartitions = task.validatePartitions) (stage : Stage) :
    after.due store stage = task.due store stage := by
  cases stage with
  | call => exact divisionWrites_congr kind division
  | keepCounts | keepValidation | report =>
    exact congrArg (List.map (Prod.mk Recorder.task)) (matchWrites_congr kind division)
  | deliver _ _ deliveries =>
    refine congrArg (List.map (Prod.mk Recorder.task)) (List.flatMap_congr fun delivery _ => ?_)
    cases delivery with
    | signal => rfl
    | write write =>
      unfold writesOf
      rw [kind.store]
  | announce | countOut | leave => rfl

end Task

end TableMigration
