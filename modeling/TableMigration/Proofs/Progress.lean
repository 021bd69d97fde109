/-
**What a report does to a task, and which actions are ready.**

* A report is taken if the action has another progress that is not final (`Task.Takes`). A report
  that is taken changes the progress of its action and of nothing else (`actionProgress_update`),
  and one that is not taken changes nothing (`update_of_not_takes`).
* `isReady_iff` — the watermark says the plain thing: an action is ready iff it is new and every
  action of a lower priority has succeeded (`Task.Cleared`). `mem_readyActions` — the list of ready
  actions misses none, although it stops at the first action above the watermark.
* `checkpoint_cases` — which partitions the end of a task settles, and with what status.
-/

import Mathlib.Tactic.ByContra
import TableMigration.Verification

namespace TableMigration

/-- The validation engine is there for the final verification only. -/
theorem Action.engine_eq_validation {action : Action} (checking : action.engine = .validation) :
    action = .finalVerification := by
  revert checking
  cases action <;> decide

namespace Task

variable {task : Task} {action other : Action} {reported : Progress}

/-! ### Reports -/

/-- Whether a report is taken. -/
def Takes (task : Task) (action : Action) (reported : Progress) : Prop :=
  ∃ now, task.actionProgress action = some now ∧ now ≠ reported ∧ now.isTerminal = false

theorem update_of_not_takes (ignored : ¬ task.Takes action reported) :
    task.update action reported = task.unchanged := by
  unfold update
  split
  · rfl
  · rename_i record found
    rw [if_pos]
    by_contra different
    rw [not_or] at different
    refine ignored ⟨record.progress, by simp [actionProgress, found], different.1, ?_⟩
    simpa using different.2

/-- The task after a report that is taken: one record has moved, and the progress of the task has
followed. -/
theorem update_of_takes (taken : task.Takes action reported) :
    ∃ record, task.records action = some record ∧
      (task.update action reported).task =
        { task.setRecord action { record with progress := reported } with
          progress := (task.setRecord action { record with progress := reported }).progressAfter
            reported } := by
  obtain ⟨now, found, different, going⟩ := taken
  simp only [actionProgress, Option.map_eq_some_iff] at found
  obtain ⟨record, found, rfl⟩ := found
  refine ⟨record, found, ?_⟩
  unfold update
  rw [found]
  simp only [different, going, Bool.false_eq_true, or_self, if_false]
  split
  · rename_i same
    rw [same]
    rfl
  · rfl

/-- The change of the progress of the task is answered and calls for deliveries, and nothing else
does. -/
theorem update_answers (task : Task) (action : Action) (reported : Progress) :
    (task.update action reported).task.progress = task.progress ∧
        (task.update action reported).changed = none ∧
        (task.update action reported).deliveries = [] ∨
      (task.update action reported).task.progress ≠ task.progress ∧
        (task.update action reported).changed =
          some (task.update action reported).task.progress ∧
        (task.update action reported).deliveries =
          (task.update action reported).task.failureDeliveries ++
            (task.update action reported).task.checkpointDeliveries := by
  unfold update
  split
  · exact .inl ⟨rfl, rfl, rfl⟩
  · split
    · exact .inl ⟨rfl, rfl, rfl⟩
    · dsimp only
      split
      · exact .inl ⟨rfl, rfl, rfl⟩
      · rename_i apart
        exact .inr ⟨apart, rfl, rfl⟩

theorem actionProgress_setRecord (record : Record) :
    (task.setRecord action record).actionProgress other =
      if other = action then some record.progress else task.actionProgress other := by
  by_cases same : other = action
  · subst same
    simp [actionProgress, setRecord]
  · simp [actionProgress, setRecord, same]

/-- A report that is taken changes the progress of its action only. -/
theorem actionProgress_update (taken : task.Takes action reported) :
    (task.update action reported).task.actionProgress other =
      if other = action then some reported else task.actionProgress other := by
  obtain ⟨record, _, after⟩ := update_of_takes taken
  rw [after]
  exact actionProgress_setRecord _

theorem actionProgress_update_of_ne (apart : other ≠ action) :
    (task.update action reported).task.actionProgress other = task.actionProgress other := by
  by_cases taken : task.Takes action reported
  · rw [actionProgress_update taken, if_neg apart]
  · rw [update_of_not_takes taken]
    rfl

/-- A task that has come to its end keeps its progress. -/
theorem progress_update_of_ended (ended : task.progress.isTerminal = true) :
    (task.update action reported).task.progress = task.progress := by
  by_cases taken : task.Takes action reported
  · obtain ⟨record, _, after⟩ := update_of_takes taken
    rw [after]
    exact if_pos ended
  · rw [update_of_not_takes taken]
    rfl

/-- A task that is told that an action is new again keeps its progress. -/
theorem progress_update_new (task : Task) (action : Action) :
    (task.update action .new).task.progress = task.progress := by
  by_cases taken : task.Takes action .new
  · obtain ⟨record, _, after⟩ := update_of_takes taken
    rw [after]
    exact ite_self task.progress
  · rw [update_of_not_takes taken]
    rfl

theorem progress_update_running (taken : task.Takes action .running)
    (going : task.progress.isTerminal = false) :
    (task.update action .running).task.progress = .running := by
  obtain ⟨record, _, after⟩ := update_of_takes taken
  rw [after]
  exact if_neg (by simp [setRecord, going])

theorem progress_update_failed (taken : task.Takes action .failed)
    (going : task.progress.isTerminal = false) :
    (task.update action .failed).task.progress = .failed := by
  obtain ⟨record, _, after⟩ := update_of_takes taken
  rw [after]
  exact if_neg (by simp [setRecord, going])

/-- A task that goes on ends with the success of its last action. -/
theorem progress_update_succeeded (taken : task.Takes action .succeeded)
    (going : task.progress.isTerminal = false) :
    (task.update action .succeeded).task.progress =
      if (task.update action .succeeded).task.watermark.isNone then .succeeded
      else task.progress := by
  obtain ⟨record, _, after⟩ := update_of_takes taken
  rw [after]
  exact if_neg (by simp [setRecord, going])

/-! ### What a report leaves alone -/

/-- What never changes while a task is run. -/
structure SameKind (first second : Task) : Prop where
  name : first.name = second.name
  table : first.table = second.table
  config : first.config = second.config
  store : first.store = second.store
  failureStatus : first.failureStatus = second.failureStatus
  has : ∀ action, first.has action = second.has action

theorem SameKind.refl (task : Task) : SameKind task task :=
  ⟨rfl, rfl, rfl, rfl, rfl, fun _ => rfl⟩

theorem SameKind.trans {first second third : Task} (left : SameKind first second)
    (right : SameKind second third) : SameKind first third :=
  ⟨left.name.trans right.name, left.table.trans right.table, left.config.trans right.config,
    left.store.trans right.store, left.failureStatus.trans right.failureStatus,
    fun action => (left.has action).trans (right.has action)⟩

theorem has_eq (task : Task) (action : Action) :
    task.has action = (task.actionProgress action).isSome := by
  simp [has, actionProgress]

theorem update_sameKind (task : Task) (action : Action) (reported : Progress) :
    SameKind (task.update action reported).task task := by
  by_cases taken : task.Takes action reported
  · have has : ∀ other, (task.update action reported).task.has other = task.has other := by
      intro other
      rw [has_eq, has_eq, actionProgress_update taken]
      split
      · rename_i same
        obtain ⟨now, found, _⟩ := taken
        rw [same, found]
        rfl
      · rfl
    obtain ⟨record, _, after⟩ := update_of_takes taken
    refine ⟨?_, ?_, ?_, ?_, ?_, has⟩ <;> rw [after] <;> rfl
  · rw [update_of_not_takes taken]
    exact .refl task

theorem listener_update (task : Task) (action : Action) (reported : Progress) :
    (task.update action reported).task.listener = task.listener := by
  by_cases taken : task.Takes action reported
  · obtain ⟨record, _, after⟩ := update_of_takes taken
    rw [after]
    rfl
  · rw [update_of_not_takes taken]
    rfl

theorem rowCounts_setProgress {record : Record} (found : task.records action = some record)
    (table : String) :
    (task.setRecord action { record with progress := reported }).rowCounts other table =
      task.rowCounts other table := by
  by_cases same : other = action
  · subst same
    obtain ⟨now, findings⟩ := record
    cases findings <;> simp [rowCounts, setRecord, found]
  · simp [rowCounts, setRecord, same]

theorem rowCounts_update (task : Task) (action other : Action) (reported : Progress)
    (table : String) :
    (task.update action reported).task.rowCounts other table = task.rowCounts other table := by
  by_cases taken : task.Takes action reported
  · obtain ⟨record, found, after⟩ := update_of_takes taken
    rw [after]
    exact rowCounts_setProgress found table
  · rw [update_of_not_takes taken]
    rfl

theorem validation_update (task : Task) (action : Action) (reported : Progress) :
    (task.update action reported).task.validation = task.validation := by
  by_cases taken : task.Takes action reported
  · obtain ⟨record, found, after⟩ := update_of_takes taken
    rw [after]
    by_cases same : Action.finalVerification = action
    · subst same
      obtain ⟨now, findings⟩ := record
      cases findings <;> simp [validation, setRecord, found]
    · simp [validation, setRecord, same]
  · rw [update_of_not_takes taken]
    rfl

/-! ### Readiness -/

/-- Whether every action of a lower priority has succeeded. -/
def Cleared (task : Task) (action : Action) : Prop :=
  ∀ lower, lower.priority < action.priority →
    ∀ progress, task.actionProgress lower = some progress → progress = .succeeded

theorem isPending_iff : task.isPending action = true ↔
    ∃ progress, task.actionProgress action = some progress ∧ progress ≠ .succeeded := by
  unfold isPending
  cases task.actionProgress action <;> simp

theorem mem_actions_of_isPending (pending : task.isPending action = true) :
    action ∈ task.actions := by
  obtain ⟨progress, found, _⟩ := isPending_iff.mp pending
  rw [mem_actions, has_eq, found]
  rfl

theorem actions_pairwise (task : Task) :
    task.actions.Pairwise fun first second => first.priority ≤ second.priority := by
  have ordered : Action.all.Pairwise fun first second => first.priority ≤ second.priority := by
    decide
  exact ordered.sublist List.filter_sublist

theorem actions_nodup (task : Task) : task.actions.Nodup := by
  have distinct : Action.all.Nodup := by decide
  exact distinct.sublist List.filter_sublist

/-- The watermark is the priority of a pending action, and no pending action is below it. -/
theorem watermark_eq_some {lowest : Nat} (mark : task.watermark = some lowest) :
    (∃ pending, task.isPending pending = true ∧ pending.priority = lowest) ∧
      ∀ pending, task.isPending pending = true → lowest ≤ pending.priority := by
  simp only [watermark, Option.map_eq_some_iff] at mark
  obtain ⟨first, found, rfl⟩ := mark
  obtain ⟨isPending, before, after, split, done⟩ := List.find?_eq_some_iff_append.mp found
  refine ⟨⟨first, isPending, rfl⟩, fun pending later => ?_⟩
  have member := mem_actions_of_isPending later
  have sorted := task.actions_pairwise
  rw [split] at member sorted
  rcases List.mem_append.mp member with early | late
  · exact absurd later (by simpa using done pending early)
  · rcases List.mem_cons.mp late with same | behind
    · exact same ▸ Nat.le_refl _
    · exact List.rel_of_pairwise_cons (List.pairwise_append.mp sorted).2.1 behind

theorem watermark_eq_none : task.watermark = none ↔
    ∀ action progress, task.actionProgress action = some progress → progress = .succeeded := by
  simp only [watermark, Option.map_eq_none_iff, List.find?_eq_none]
  constructor
  · intro done action progress found
    by_contra different
    have pending := isPending_iff.mpr ⟨progress, found, different⟩
    exact done action (mem_actions_of_isPending pending) pending
  · intro all action _ pending
    obtain ⟨progress, found, different⟩ := isPending_iff.mp pending
    exact different (all action progress found)

/-- The watermark does not hold an action back iff nothing is pending below it. -/
theorem reaches_iff : task.reaches action = true ↔ task.Cleared action := by
  unfold reaches
  split
  · rename_i lowest mark
    obtain ⟨⟨first, pending, at_⟩, least⟩ := watermark_eq_some mark
    rw [decide_eq_true_iff]
    constructor
    · intro below lower under progress found
      by_contra different
      have := least lower (isPending_iff.mpr ⟨progress, found, different⟩)
      omega
    · intro cleared
      by_contra above
      obtain ⟨progress, found, different⟩ := isPending_iff.mp pending
      exact different (cleared first (by omega) progress found)
  · rename_i mark
    simp only [true_iff]
    exact fun lower _ progress found => watermark_eq_none.mp mark lower progress found

/-- **An action is ready iff it is new and everything below it has succeeded.** -/
theorem isReady_iff : task.isReady action = true ↔
    task.actionProgress action = some .new ∧ task.Cleared action := by
  unfold isReady
  rw [Bool.and_eq_true, beq_iff_eq, reaches_iff]

/-- Along an order in which a property is only ever lost, `takeWhile` loses nothing. -/
theorem mem_takeWhile_of_pairwise {α : Type} {keep : α → Bool} {items : List α} {item : α}
    (falling : items.Pairwise fun first second => keep second = true → keep first = true)
    (member : item ∈ items) (kept : keep item = true) : item ∈ items.takeWhile keep := by
  induction items with
  | nil => cases member
  | cons head rest hyp =>
    have headKept : keep head = true := by
      rcases List.mem_cons.mp member with rfl | later
      · exact kept
      · exact List.rel_of_pairwise_cons falling later kept
    rw [List.takeWhile_cons_of_pos headKept]
    rcases List.mem_cons.mp member with rfl | later
    · exact List.mem_cons_self
    · exact List.mem_cons_of_mem _ (hyp falling.of_cons later)

/-- **The list of ready actions misses none.** -/
theorem mem_readyActions : action ∈ task.readyActions ↔ task.isReady action = true := by
  unfold readyActions
  rw [List.mem_filter]
  refine ⟨And.right, fun ready => ⟨?_, ready⟩⟩
  obtain ⟨new, cleared⟩ := isReady_iff.mp ready
  refine mem_takeWhile_of_pairwise ?_ (mem_actions.mpr (by rw [has_eq, new]; rfl))
    (reaches_iff.mpr cleared)
  refine task.actions_pairwise.imp fun below reached => ?_
  rw [reaches_iff] at reached ⊢
  exact fun lower under => reached lower (Nat.lt_of_lt_of_le under below)

theorem readyActions_nodup (task : Task) : task.readyActions.Nodup :=
  (task.actions_nodup.sublist (List.takeWhile_sublist _)).sublist List.filter_sublist

/-! ### What its actions make of a task -/

/-- Whether a task has failed iff one of its actions has, and succeeded iff it has actions and all of
them have. -/
structure Judged (task : Task) : Prop where
  failed : task.progress = .failed ↔ ∃ action, task.actionProgress action = some .failed
  succeeded : task.progress = .succeeded ↔ (∃ action, task.has action = true) ∧
    ∀ action progress, task.actionProgress action = some progress → progress = .succeeded

/-- A failed action stays failed when another one is reported on. -/
theorem failed_update (taken : task.Takes action reported)
    (failed : ∃ other, task.actionProgress other = some .failed) :
    ∃ other, (task.update action reported).task.actionProgress other = some .failed := by
  obtain ⟨other, failed⟩ := failed
  refine ⟨other, ?_⟩
  rw [actionProgress_update taken]
  split
  · rename_i same
    obtain ⟨now, found, _, going⟩ := taken
    rw [← same, failed] at found
    cases found
    cases going
  · exact failed

theorem failed_of_update (taken : task.Takes action reported) (apart : reported ≠ .failed)
    (failed : ∃ other, (task.update action reported).task.actionProgress other = some .failed) :
    ∃ other, task.actionProgress other = some .failed := by
  obtain ⟨other, failed⟩ := failed
  rw [actionProgress_update taken] at failed
  split at failed
  · exact absurd (Option.some.inj failed) apart
  · exact ⟨other, failed⟩

/-- A task that takes a report has not succeeded. -/
theorem Judged.not_succeeded (judged : task.Judged) (taken : task.Takes action reported) :
    task.progress ≠ .succeeded := by
  intro done
  obtain ⟨now, found, _, going⟩ := taken
  rw [(judged.succeeded.mp done).2 action now found] at going
  cases going

/-- A task that takes a report goes on unless it has failed. -/
theorem Judged.going (judged : task.Judged) (taken : task.Takes action reported)
    (apart : task.progress ≠ .failed) : task.progress.isTerminal = false := by
  have := judged.not_succeeded taken
  cases progress : task.progress <;> first | rfl | contradiction

theorem Judged.of_same {after : Task} (judged : task.Judged)
    (same : after.progress = task.progress)
    (actions : ∀ action, after.actionProgress action = task.actionProgress action) :
    after.Judged := by
  refine ⟨?_, ?_⟩ <;> simp only [same, has_eq, actions]
  · exact judged.failed
  · simpa only [has_eq] using judged.succeeded

/-- **No report breaks the judgement of a task by its actions.** -/
theorem Judged.update (judged : task.Judged) (action : Action) (reported : Progress) :
    (task.update action reported).task.Judged := by
  by_cases ignored : ¬ task.Takes action reported
  · rw [update_of_not_takes ignored]
    exact judged
  have taken := not_not.mp ignored
  have found : (task.update action reported).task.actionProgress action = some reported := by
    rw [actionProgress_update taken, if_pos rfl]
  have has : ∃ other, (task.update action reported).task.has other = true :=
    ⟨action, by rw [has_eq, found]; rfl⟩
  by_cases past : task.progress = .failed
  · have same : (task.update action reported).task.progress = .failed :=
      (progress_update_of_ended (by rw [past]; rfl)).trans past
    obtain ⟨other, failed⟩ := failed_update taken (judged.failed.mp past)
    refine ⟨⟨fun _ => ⟨other, failed⟩, fun _ => same⟩, fun done => ?_, fun all => ?_⟩
    · cases same.symm.trans done
    · cases all.2 other .failed failed
  have going := judged.going taken past
  have unfailed : reported ≠ .failed →
      ¬ ∃ other, (task.update action reported).task.actionProgress other = some .failed :=
    fun apart failed => past (judged.failed.mpr (failed_of_update taken apart failed))
  -- A report that ends no action ends no task, and shows that the task has not succeeded.
  have open_ : reported ≠ .failed → reported ≠ .succeeded →
      (task.update action reported).task.progress.isTerminal = false →
      (task.update action reported).task.Judged := by
    intro alive undone goes
    refine ⟨⟨fun failed => ?_, fun failed => absurd failed (unfailed alive)⟩, fun done => ?_,
      fun all => absurd (all.2 action reported found) undone⟩
    · rw [failed] at goes
      cases goes
    · rw [done] at goes
      cases goes
  cases reported with
  | new => exact open_ nofun nofun (by rw [progress_update_new, going])
  | running => exact open_ nofun nofun (by rw [progress_update_running taken going]; rfl)
  | failed =>
    have same := progress_update_failed taken going
    refine ⟨⟨fun _ => ⟨action, found⟩, fun _ => same⟩, fun done => ?_, fun all => ?_⟩
    · cases same.symm.trans done
    · cases all.2 action .failed found
  | succeeded =>
    have same := progress_update_succeeded taken going
    have clear := unfailed nofun
    split at same
    · rename_i mark
      have all := watermark_eq_none.mp (Option.isNone_iff_eq_none.mp mark)
      refine ⟨⟨fun failed => ?_, fun failed => absurd failed clear⟩, fun _ => ⟨has, all⟩,
        fun _ => same⟩
      cases same.symm.trans failed
    · rename_i mark
      refine ⟨⟨fun failed => ?_, fun failed => absurd failed clear⟩, fun done => ?_, fun all => ?_⟩
      · exact absurd (same.symm.trans failed) past
      · exact absurd (same.symm.trans done) (judged.not_succeeded taken)
      · exact absurd (Option.isNone_iff_eq_none.mpr (watermark_eq_none.mpr all.2)) mark

/-- What the end of a task settles: all partitions if it has succeeded, and those that succeeded if
its final verification has failed. -/
theorem checkpoint_cases {status : Status} {partitions : List Partition}
    (settles : task.checkpoint = some (status, partitions)) :
    task.table.isPartitioned = true ∧
      (task.progress = .succeeded ∧ status = .succeeded ∧ partitions = task.table.partitions ∨
        task.actionProgress .finalVerification = some .failed ∧ status = task.failureStatus ∧
          partitions = (task.validation.map Validation.succeeded).getD task.table.partitions) := by
  unfold checkpoint at settles
  split at settles
  · cases settles
  rename_i flat
  refine ⟨by simpa using flat, ?_⟩
  split at settles
  · rename_i succeeded
    cases settles
    exact .inl ⟨succeeded, rfl, rfl⟩
  · split at settles
    · rename_i failed
      cases settles
      exact .inr ⟨failed, rfl, rfl⟩
    · cases settles
  · cases settles
  · cases settles

end Task

end TableMigration
