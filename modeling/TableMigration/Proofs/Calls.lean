/-
**Tasks under any calls.**

* `Call` — what a task is called for: reports of actions, counts, divisions of the partitions, and
  listeners. `Task.after` is the task after some calls, `Task.changes` are the changes of progress
  that the calls answer.
* `Call.lastReported` — the last value that was reported for an action, where nothing counts after
  its first terminal value.
* `Task.course_of_calls` — whatever is reported in whatever order, the actions of a task stand at
  the last values reported for them, the progress of the task is what these values make of it, and
  its changes are answered once each: it begins at most once and ends at most once.
-/

import Mathlib.Data.List.Destutter
import Mathlib.Data.List.Infix
import TableMigration.Proofs.Findings

namespace TableMigration

/-! ### Calls -/

/-- Something that a task is called for. -/
inductive Call where
  /-- Take the report of an action. -/
  | report (action : Action) (reported : Progress)
  /-- Keep the division of the partitions that a verification left. -/
  | divide (validation : Validation)
  /-- Keep the counts that an action reports for a table. -/
  | count (action : Action) (table : String) (counts : RowCounts)
  /-- Let someone listen in place of whoever listened before. -/
  | listen (listener : Option Listener)

namespace Call

/-- The value that a call reports for an action. -/
def reported? (action : Action) : Call → Option Progress
  | .report other reported => if other = action then some reported else none
  | _ => none

end Call

/-- Some values up to the first terminal one, and with it. -/
def Progress.untilEnd : List Progress → List Progress
  | [] => []
  | value :: rest => if value.isTerminal then [value] else value :: untilEnd rest

/-- The last value that some calls report for an action, up to and including its first terminal
value. -/
def Call.lastReported (action : Action) (calls : List Call) : Progress :=
  (Progress.untilEnd (calls.filterMap (reported? action))).getLast?.getD .new

namespace Task

/-- What follows from a call. -/
def call (task : Task) : Call → Update
  | .report action reported => task.update action reported
  | .divide validation => ((task.keepValidation validation).getD task).unchanged
  | .count action table counts => ((task.keepCounts action table counts).getD task).unchanged
  | .listen listener => { task with listener := listener }.unchanged

/-- The task after some calls. -/
def after (task : Task) (calls : List Call) : Task :=
  calls.foldl (fun task call => (task.call call).task) task

/-- The changes of progress that some calls answer, in order. -/
def changes (task : Task) : List Call → List Progress
  | [] => []
  | call :: rest => (task.call call).changed.toList ++ (task.call call).task.changes rest

/-- The progress of a task after each of some calls. -/
def course (task : Task) : List Call → List Progress
  | [] => []
  | call :: rest => (task.call call).task.progress :: (task.call call).task.course rest

/-- Whether some report has set an action to running. -/
def Begun (task : Task) (calls : List Call) : Prop :=
  ∃ before action, before ++ [.report action .running] <+: calls ∧
    (task.after before).actionProgress action ≠ some .running ∧
    (task.after (before ++ [.report action .running])).actionProgress action = some .running

variable {task : Task} {call : Call} {calls : List Call} {action other : Action}
  {reported : Progress}

theorem after_append (task : Task) (calls : List Call) (call : Call) :
    task.after (calls ++ [call]) = ((task.after calls).call call).task := by
  unfold after
  rw [List.foldl_append]
  rfl

theorem course_eq (task : Task) (calls : List Call) :
    task.progress :: task.course calls =
      calls.inits.map fun before => (task.after before).progress := by
  induction calls generalizing task with
  | nil => rfl
  | cons call rest hyp =>
    rw [course, hyp, List.inits_cons, List.map_cons, List.map_map]
    rfl

end Task

/-! ### The last values reported -/

namespace Progress

/-- The last of some values up to the first terminal one stays once it is terminal. -/
theorem last_untilEnd_append (values : List Progress) (value : Progress) {first : Progress}
    (going : first.isTerminal = false) :
    (untilEnd (values ++ [value])).getLast?.getD first =
      if ((untilEnd values).getLast?.getD first).isTerminal then
        (untilEnd values).getLast?.getD first
      else value := by
  induction values generalizing first with
  | nil =>
    have one : untilEnd [value] = [value] := by
      unfold untilEnd
      rw [untilEnd, ite_self]
    rw [List.nil_append, one, untilEnd, List.getLast?_nil, Option.getD_none, going]
    rfl
  | cons head rest hyp =>
    rw [List.cons_append, untilEnd, untilEnd]
    by_cases ended : head.isTerminal = true
    · rw [if_pos ended, if_pos ended, if_pos (by exact ended)]
    · rw [if_neg ended, if_neg ended, List.getLast?_cons, List.getLast?_cons, Option.getD_some,
        Option.getD_some]
      exact hyp (Bool.eq_false_iff.mpr ended)

end Progress

namespace Call

theorem reported?_eq_some {call : Call} {action : Action} {reported : Progress} :
    call.reported? action = some reported ↔ call = .report action reported := by
  cases call with
  | report other value =>
    show (if other = action then some value else none) = _ ↔ _
    rw [Option.ite_none_right_eq_some, Option.some_inj, report.injEq]
  | divide | count | listen => exact ⟨nofun, nofun⟩

/-- Where an action stands after one more call: a value counts unless the action has ended. -/
def stands (action : Action) (call : Call) (now : Progress) : Progress :=
  match call.reported? action with
  | some reported => if now.isTerminal then now else reported
  | none => now

theorem lastReported_append (action : Action) (calls : List Call) (call : Call) :
    lastReported action (calls ++ [call]) = call.stands action (lastReported action calls) := by
  unfold lastReported stands
  rw [List.filterMap_append, List.filterMap_cons]
  cases call.reported? action with
  | none => rw [List.filterMap_nil, List.append_nil]
  | some reported => exact Progress.last_untilEnd_append _ _ rfl

end Call

namespace Task

variable {task : Task} {call : Call} {calls : List Call} {action other : Action}
  {reported : Progress}

/-! ### One call -/

/-- Only reports change what has a progress. -/
theorem call_of_silent (silent : ∀ action, call.reported? action = none) :
    (task.call call).task.progress = task.progress ∧
      ∀ action, (task.call call).task.actionProgress action = task.actionProgress action := by
  cases call with
  | report action reported => cases (if_pos rfl).symm.trans (silent action)
  | listen listener => exact ⟨rfl, fun _ => rfl⟩
  | divide validation =>
    rw [Task.call, keepValidation]
    split
    · rename_i found
      exact ⟨rfl, fun _ => actionProgress_setRecord_same (by rw [actionProgress, found]; rfl)⟩
    · exact ⟨rfl, fun _ => rfl⟩
  | count action table counts =>
    rw [Task.call, keepCounts]
    split
    · rename_i found
      exact ⟨rfl, fun _ => actionProgress_setRecord_same (by rw [actionProgress, found]; rfl)⟩
    · exact ⟨rfl, fun _ => rfl⟩

/-- A call moves an action if it reports on it and the action has not ended. -/
theorem actionProgress_call (task : Task) (call : Call) (action : Action) :
    (task.call call).task.actionProgress action =
      (task.actionProgress action).map (call.stands action) := by
  unfold Call.stands
  cases reports : call.reported? action with
  | none =>
    rw [Option.map_id']
    cases call with
    | divide | count | listen => exact (call_of_silent fun _ => rfl).2 action
    | report other reported =>
      have apart : action ≠ other := by
        rintro rfl
        cases reports.symm.trans (Call.reported?_eq_some.mpr rfl)
      exact actionProgress_update_of_ne apart
  | some reported =>
    rw [Call.reported?_eq_some.mp reports]
    show (task.update action reported).task.actionProgress action = _
    by_cases taken : task.Takes action reported
    · obtain ⟨now, found, _, going⟩ := id taken
      rw [actionProgress_update taken, if_pos rfl, found, Option.map_some, going]
      rfl
    · rw [update_of_not_takes taken]
      show task.actionProgress action = _
      cases found : task.actionProgress action with
      | none => rfl
      | some now =>
        by_cases ended : now.isTerminal = true
        · exact congrArg some (if_pos ended).symm
        · have same : now = reported := by
            by_contra different
            exact taken ⟨now, found, different, Bool.eq_false_iff.mpr ended⟩
          exact congrArg some ((if_neg ended).trans same.symm).symm

/-- A call answers the progress of the task if it has changed. -/
theorem changed_call (task : Task) (call : Call) :
    (task.call call).changed =
      if (task.call call).task.progress = task.progress then none
      else some (task.call call).task.progress := by
  cases call with
  | report action reported =>
    rcases task.update_answers action reported with ⟨same, unchanged, -⟩ | ⟨apart, changed, -⟩
    · exact unchanged.trans (if_pos same).symm
    · exact changed.trans (if_neg apart).symm
  | divide | count | listen =>
    rw [if_pos (call_of_silent fun _ => rfl).1]
    rfl

/-- The progress of a task never goes back, and never on from its end. -/
theorem progress_call (task : Task) (call : Call) :
    (task.call call).task.progress = task.progress ∨
      task.progress.isTerminal = false ∧ (task.call call).task.progress ≠ .new := by
  cases call with
  | divide | count | listen => exact .inl (call_of_silent fun _ => rfl).1
  | report action reported =>
    show (task.update action reported).task.progress = _ ∨ _
    by_cases ended : task.progress.isTerminal = true
    · exact .inl (progress_update_of_ended ended)
    have going := Bool.eq_false_iff.mpr ended
    by_cases taken : task.Takes action reported
    · cases reported with
      | new =>
        obtain ⟨record, _, after⟩ := update_of_takes taken
        refine .inl ?_
        rw [after]
        exact if_neg ended
      | running => exact .inr ⟨going, by rw [call, progress_update_running taken going]; nofun⟩
      | failed => exact .inr ⟨going, by rw [call, progress_update_failed taken going]; nofun⟩
      | succeeded =>
        have goes := progress_update_succeeded taken going
        split at goes
        · exact .inr ⟨going, by rw [call, goes]; nofun⟩
        · exact .inl goes
    · rw [update_of_not_takes taken]
      exact .inl rfl

theorem progress_call_of_ended (ended : task.progress.isTerminal = true) (call : Call) :
    (task.call call).task.progress = task.progress := by
  refine (progress_call task call).resolve_right fun goes => ?_
  rw [ended] at goes
  cases goes.1

/-! ### Changes of progress -/

/-- The answers are the successive changes of the progress. -/
theorem changes_eq (task : Task) (calls : List Call) :
    task.changes calls =
      ((calls.inits.map fun before => (task.after before).progress).destutter (· ≠ ·)).tail := by
  rw [← course_eq, List.destutter_cons']
  suffices all : (task.course calls).destutter' (· ≠ ·) task.progress =
      task.progress :: task.changes calls by
    rw [all, List.tail_cons]
  induction calls generalizing task with
  | nil => rfl
  | cons call rest hyp =>
    rw [course, changes, changed_call]
    by_cases same : (task.call call).task.progress = task.progress
    · rw [List.destutter'_cons_neg _ (not_not.mpr same.symm), if_pos same, ← same, hyp]
      rfl
    · rw [List.destutter'_cons_pos _ (Ne.symm same), if_neg same, hyp]
      rfl

theorem changes_of_ended (ended : task.progress.isTerminal = true) (calls : List Call) :
    task.changes calls = [] := by
  induction calls generalizing task with
  | nil => rfl
  | cons call rest hyp =>
    have same := progress_call_of_ended ended call
    rw [changes, changed_call, if_pos same, hyp (same ▸ ended)]
    rfl

/-- A task that has begun changes its progress at most once more, and this is its end. -/
theorem changes_of_running (running : task.progress = .running) (calls : List Call) :
    ∃ ending : Option Progress, (∀ last ∈ ending, last.isTerminal = true) ∧
      task.changes calls = ending.toList := by
  induction calls generalizing task with
  | nil => exact ⟨none, nofun, rfl⟩
  | cons call rest hyp =>
    rw [changes, changed_call]
    by_cases same : (task.call call).task.progress = task.progress
    · rw [if_pos same]
      exact hyp (same.trans running)
    · have old := ((progress_call task call).resolve_left same).2
      have ended : (task.call call).task.progress.isTerminal = true := by
        rw [running] at same
        cases now : (task.call call).task.progress <;> first | rfl | contradiction
      rw [if_neg same, changes_of_ended ended]
      exact ⟨some _, fun last member => Option.mem_some.mp member ▸ ended, rfl⟩

/-- A new task begins at most once and ends at most once. -/
theorem changes_of_new (new : task.progress = .new) (calls : List Call) :
    ∃ ending : Option Progress, (∀ last ∈ ending, last.isTerminal = true) ∧
      (task.changes calls = ending.toList ∨ task.changes calls = .running :: ending.toList) := by
  induction calls generalizing task with
  | nil => exact ⟨none, nofun, .inl rfl⟩
  | cons call rest hyp =>
    rw [changes, changed_call]
    by_cases same : (task.call call).task.progress = task.progress
    · rw [if_pos same]
      exact hyp (same.trans new)
    rw [if_neg same]
    by_cases running : (task.call call).task.progress = .running
    · obtain ⟨ending, ends, rest⟩ := changes_of_running running rest
      rw [rest, running]
      exact ⟨ending, ends, .inr rfl⟩
    · have old := ((progress_call task call).resolve_left same).2
      have ended : (task.call call).task.progress.isTerminal = true := by
        cases now : (task.call call).task.progress <;> first | rfl | contradiction
      rw [changes_of_ended ended]
      exact ⟨some _, fun last member => Option.mem_some.mp member ▸ ended, .inl rfl⟩

/-! ### The course of a task -/

theorem actionProgress_addActions (task : Task) (actions : List Action) (action : Action) :
    (task.addActions actions).actionProgress action =
      if action ∈ actions then some .new else task.actionProgress action := by
  induction actions generalizing task with
  | nil => exact (if_neg List.not_mem_nil).symm
  | cons head rest hyp =>
    show ((task.addAction head).addActions rest).actionProgress action = _
    have new : (Record.fresh head).progress = .new := by cases head <;> rfl
    rw [hyp, addAction, actionProgress_setRecord, new]
    by_cases later : action ∈ rest
    · rw [if_pos later, if_pos (List.mem_cons_of_mem _ later)]
    by_cases same : action = head
    · rw [if_neg later, if_pos same, if_pos (same ▸ List.mem_cons_self)]
    · rw [if_neg later, if_neg same, if_neg fun member => (List.mem_cons.mp member).elim same later]

/-- An action of a fresh task stands at the last value reported for it. -/
theorem Fresh.actionProgress_after (fresh : task.Fresh) (calls : List Call) (action : Action) :
    (task.after calls).actionProgress action =
      (task.actionProgress action).map fun _ => Call.lastReported action calls := by
  induction calls using List.reverseRecOn with
  | nil =>
    cases found : task.actionProgress action with
    | none => exact found
    | some progress => exact found.trans (congrArg some (fresh.actionProgress found))
  | append_singleton calls call hyp =>
    rw [after_append, actionProgress_call, hyp, Option.map_map]
    simp only [Function.comp_def, Call.lastReported_append]

theorem Judged.after_call (judged : task.Judged) (call : Call) : (task.call call).task.Judged := by
  cases call with
  | report action reported => exact judged.update action reported
  | divide | count | listen =>
    exact judged.of_same (call_of_silent fun _ => rfl).1 (call_of_silent fun _ => rfl).2

theorem Judged.after (judged : task.Judged) (calls : List Call) : (task.after calls).Judged := by
  induction calls generalizing task with
  | nil => exact judged
  | cons call rest hyp => exact hyp (judged.after_call call)

theorem takes_iff : task.Takes action reported ↔ task.actionProgress action ≠ some reported ∧
    (task.update action reported).task.actionProgress action = some reported := by
  constructor
  · intro taken
    obtain ⟨now, found, different, _⟩ := id taken
    exact ⟨fun same => different (Option.some.inj (found.symm.trans same)),
      (actionProgress_update taken).trans (if_pos rfl)⟩
  · rintro ⟨different, moved⟩
    by_contra ignored
    rw [update_of_not_takes ignored] at moved
    exact different moved

theorem begun_append : task.Begun (calls ++ [call]) ↔ task.Begun calls ∨
    ∃ action, call = .report action .running ∧ (task.after calls).Takes action .running := by
  unfold Begun
  simp only [List.prefix_concat_iff, after_append]
  constructor
  · rintro ⟨before, action, last | earlier, effective⟩
    · obtain ⟨rfl, reports⟩ := List.append_inj' last rfl
      exact .inr ⟨action, (List.singleton_inj.mp reports).symm, takes_iff.mpr effective⟩
    · exact .inl ⟨before, action, earlier, effective⟩
  · rintro (⟨before, action, earlier, effective⟩ | ⟨action, rfl, taken⟩)
    · exact ⟨before, action, .inr earlier, effective⟩
    · exact ⟨calls, action, .inl rfl, takes_iff.mp taken⟩

theorem running_of_call (running : (task.call call).task.progress = .running) :
    task.progress = .running ∨
      ∃ action, call = .report action .running ∧ task.Takes action .running := by
  cases call with
  | divide | count | listen => exact .inl ((call_of_silent fun _ => rfl).1.symm.trans running)
  | report action reported =>
    by_cases taken : task.Takes action reported ∧ task.progress.isTerminal = false
    · obtain ⟨taken, going⟩ := taken
      cases reported with
      | running => exact .inr ⟨action, rfl, taken⟩
      | new => exact .inl ((progress_update_new task action).symm.trans running)
      | failed => cases (progress_update_failed taken going).symm.trans running
      | succeeded =>
        have goes := (progress_update_succeeded taken going).symm.trans running
        split at goes
        · cases goes
        · exact .inl goes
    · refine .inl ?_
      by_cases ended : task.progress.isTerminal = true
      · exact (progress_update_of_ended ended).symm.trans running
      · have ignored := fun takes => taken ⟨takes, Bool.eq_false_iff.mpr ended⟩
        exact (congrArg (·.task.progress) (update_of_not_takes ignored)).symm.trans running

theorem ne_new_of_takes (taken : task.Takes action .running) :
    (task.update action .running).task.progress ≠ .new := by
  by_cases ended : task.progress.isTerminal = true
  · rw [progress_update_of_ended ended]
    rintro new
    rw [new] at ended
    cases ended
  · rw [progress_update_running taken (Bool.eq_false_iff.mpr ended)]
    nofun

/-- A task runs or has ended once a report has set an action to running, and runs no sooner. -/
theorem Fresh.begun (fresh : task.Fresh) (calls : List Call) :
    ((task.after calls).progress = .running → task.Begun calls) ∧
      (task.Begun calls → (task.after calls).progress ≠ .new) := by
  induction calls using List.reverseRecOn with
  | nil =>
    refine ⟨fun running => ?_, fun begun => ?_⟩
    · cases fresh.progress.symm.trans running
    · obtain ⟨before, action, first, _⟩ := begun
      cases (List.append_eq_nil_iff.mp (List.prefix_nil.mp first)).2
  | append_singleton calls call hyp =>
    rw [after_append, begun_append]
    refine ⟨fun running => (running_of_call running).imp_left hyp.1, ?_⟩
    rintro (earlier | ⟨action, rfl, taken⟩)
    · rcases progress_call (task.after calls) call with same | ⟨_, old⟩
      · rw [same]
        exact hyp.2 earlier
      · exact old
    · exact ne_new_of_takes taken

open Classical in
/-- **The progress of a task is what its actions make of it, in whatever order they are reported
on.** Each action stands at the last value reported for it, up to its first terminal one, and the
calls answer each change of the progress of the task once. -/
theorem course_of_calls (name : String) (table : Table) (config : TableConfig)
    (store : Option StoreRef) (failureStatus : Status) (actions : List Action)
    (calls : List Call) :
    let task := (create name table config store failureStatus).addActions actions
    (∀ action, (task.after calls).actionProgress action =
        if action ∈ actions then some (Call.lastReported action calls) else none) ∧
      (task.after calls).progress =
        (if ∃ action ∈ actions, (task.after calls).actionProgress action = some .failed then .failed
        else if actions ≠ [] ∧
          ∀ action ∈ actions, (task.after calls).actionProgress action = some .succeeded then
          .succeeded
        else if task.Begun calls then .running
        else .new) ∧
      task.changes calls =
        ((calls.inits.map fun before => (task.after before).progress).destutter (· ≠ ·)).tail ∧
      ∃ ending : Option Progress, (∀ last ∈ ending, last.isTerminal = true) ∧
        (task.changes calls = ending.toList ∨
          task.changes calls = .running :: ending.toList) := by
  intro task
  have fresh : task.Fresh := (fresh_create name table config store failureStatus).addActions actions
  have stands : ∀ action, (task.after calls).actionProgress action =
      if action ∈ actions then some (Call.lastReported action calls) else none := by
    intro action
    rw [fresh.actionProgress_after, actionProgress_addActions]
    split <;> rfl
  refine ⟨stands, ?_, changes_eq task calls, changes_of_new fresh.progress calls⟩
  have judged := fresh.judged.after calls
  have failed : (∃ action ∈ actions, (task.after calls).actionProgress action = some .failed) ↔
      (task.after calls).progress = .failed := by
    rw [judged.failed]
    refine ⟨fun ⟨action, _, failed⟩ => ⟨action, failed⟩, fun ⟨action, failed⟩ => ⟨action, ?_, failed⟩⟩
    rw [stands] at failed
    exact (Option.ite_none_right_eq_some.mp failed).1
  have succeeded : (actions ≠ [] ∧
      ∀ action ∈ actions, (task.after calls).actionProgress action = some .succeeded) ↔
      (task.after calls).progress = .succeeded := by
    rw [judged.succeeded]
    simp only [has_eq, stands]
    constructor
    · rintro ⟨busy, all⟩
      obtain ⟨action, member⟩ := List.exists_mem_of_ne_nil _ busy
      refine ⟨⟨action, by rw [if_pos member]; rfl⟩, fun other progress found => ?_⟩
      have present := (Option.ite_none_right_eq_some.mp found).1
      exact Option.some.inj (found.symm.trans (all other present))
    · rintro ⟨⟨action, has⟩, all⟩
      refine ⟨?_, fun other member => ?_⟩
      · rintro rfl
        rw [if_neg List.not_mem_nil] at has
        cases has
      · have last := all other _ (if_pos member)
        rw [if_pos member, last]
  rw [if_congr failed rfl rfl, if_congr succeeded rfl rfl]
  have begun := fresh.begun calls
  cases now : (task.after calls).progress with
  | failed => exact (if_pos rfl).symm
  | succeeded => rfl
  | running => exact (if_pos (begun.1 now)).symm
  | new => exact (if_neg fun started => begun.2 started now).symm

end Task

end TableMigration
