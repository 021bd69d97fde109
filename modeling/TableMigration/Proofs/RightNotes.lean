/-
**Right notes.**

* `Custody.Carried` — an action that was handed out is on its way or has come to its end.
* `Notes.Right` — the notes of a run say of every finished table what has become of its tasks, and count
  these tasks.
* They stay right when the tasks move on (`Notes.Right.step`), when a failed task is noted
  (`Notes.Right.fail`), and when a table is finished or given up (`Notes.Right.finish`).
-/

import TableMigration.Proofs.Account
import TableMigration.Proofs.Notes

namespace TableMigration

namespace Custody

variable {custody next : Custody} {answers : Nat → Task → Action → Execution → Prop}
  {acts new : List Act}

/-- A task keeps its table. -/
theorem Step.table (step : custody.Step answers new next) (sound : custody.Sound) (number : Nat) :
    (next.tasks number).map Task.table = (custody.tasks number).map Task.table := by
  cases before : custody.tasks number with
  | some task =>
    obtain ⟨after, found, on⟩ := step.movesOn sound before
    rw [found]
    exact congrArg some on.kind.table
  | none =>
    cases found : next.tasks number with
    | none => rfl
    | some after =>
      obtain ⟨task, known, _⟩ := step.origin sound found
      rw [before] at known
      cases known

/-! ### Actions that were handed out -/

/-- Whether every action that was handed out is on its way or has come to its end. -/
def Carried (custody : Custody) (acts : List Act) : Prop :=
  ∀ number action, .dispatched number action ∈ acts →
    (∃ station, ⟨number, action, station⟩ ∈ custody.items) ∨
      ∃ task progress, custody.tasks number = some task ∧
        task.actionProgress action = some progress ∧ progress.isTerminal = true

theorem Step.carried (step : custody.Step answers new next) (sound : custody.Sound)
    (carried : custody.Carried acts) : next.Carried (acts ++ new) := by
  intro number action member
  -- an action that goes on has another station
  have goesOn : ∀ {item later others}, custody.items = item ::ₘ others → later.key = item.key →
      (∃ station, ⟨number, action, station⟩ ∈ custody.items) →
      ∃ station, ⟨number, action, station⟩ ∈ later ::ₘ others := by
    rintro item later others held same ⟨station, member⟩
    rw [held] at member
    rcases Multiset.mem_cons.mp member with rfl | behind
    · obtain ⟨task, act, station'⟩ := later
      cases same
      exact ⟨station', Multiset.mem_cons_self _ _⟩
    · exact ⟨station, Multiset.mem_cons_of_mem behind⟩
  rcases List.mem_append.mp member with old | fresh
  · refine (carried number action old).elim (fun way => ?_) fun ⟨task, progress, found, now, final⟩ => ?_
    · cases step with
      | quiet | findEnded | look | miss => exact .inl way
      | collect => exact .inl (way.imp fun _ member => Multiset.mem_add.mpr (.inr member))
      | lose held absent => exact absurd absent (sound.not_lost held)
      | dispatch held | pass held | keepCounts held | keepValidation held =>
        exact .inl (goesOn held rfl way)
      | @settle other act station result task others held found reported =>
        obtain ⟨station', member⟩ := way
        rw [held] at member
        rcases Multiset.mem_cons.mp member with same | behind
        · cases same
          have taken := sound.takes_result held found reported
          refine .inr ⟨_, result, if_pos rfl, ?_, ?_⟩
          · rw [Task.actionProgress_update taken, if_pos rfl]
          · exact forward_of_result (sound.final _ (held ▸ Multiset.mem_cons_self _ _)) reported
        · exact .inl ⟨station', behind⟩
    · obtain ⟨after, found', on⟩ := step.movesOn sound found
      exact .inr ⟨after, progress, found', on.settled action progress now final, final⟩
  · obtain ⟨_, _, _, _, _, rfl⟩ := step.of_dispatched fresh
    exact .inl ⟨_, Multiset.mem_cons_self _ _⟩

/-! ### Tasks that are counted -/

end Custody

/-- Whether a task belongs to one of some tables. -/
def Task.isAmong (tasks : List Task) (names : List String) (number : Nat) : Bool :=
  (tasks[number]?).any fun task => names.contains task.table.fullName

theorem Task.isAmong_iff {tasks : List Task} {names : List String} {number : Nat} :
    isAmong tasks names number = true ↔
      ∃ task, tasks[number]? = some task ∧ task.table.fullName ∈ names := by
  unfold isAmong
  rw [Option.any_eq_true]
  simp only [List.contains_iff_mem]

namespace Custody

/-- How many of the listed tasks of some tables show a progress, each as often as it is listed. -/
def tally (custody : Custody) (tasks : List Task) (listed : List Nat) (names : List String)
    (progress : Progress) : Nat :=
  listed.countP fun number => decide (custody.Shows number progress) && Task.isAmong tasks names number

variable {custody next : Custody} {tasks : List Task} {listed : List Nat} {names names' : List String}
  {name : String} {progress : Progress}

/-- Whether a task has succeeded or failed. -/
def Closed (custody : Custody) (number : Nat) : Prop :=
  custody.Shows number .succeeded ∨ custody.Shows number .failed

theorem tally_eq (same : ∀ number ∈ listed, Task.isAmong tasks names number = true →
      (custody.Shows number progress ↔ next.Shows number progress)) :
    custody.tally tasks listed names progress = next.tally tasks listed names progress := by
  refine List.countP_congr fun number member => ?_
  rw [Bool.and_eq_true_iff, Bool.and_eq_true_iff, decide_eq_true_iff, decide_eq_true_iff]
  exact and_congr_left (same number member)

theorem tally_nil : custody.tally tasks listed [] progress = 0 := by
  refine List.countP_eq_zero.mpr fun number _ counted => ?_
  obtain ⟨_, among⟩ := Bool.and_eq_true_iff.mp counted
  obtain ⟨_, _, named⟩ := Task.isAmong_iff.mp among
  cases named

/-- One more table brings its tasks. -/
theorem tally_insert (new : name ∉ names) (all : ∀ other, other ∈ names' ↔ other = name ∨ other ∈ names) :
    custody.tally tasks listed names' progress = custody.tally tasks listed names progress +
      (Task.listedOf tasks listed name).countP fun number => decide (custody.Shows number progress) := by
  unfold tally Task.listedOf
  rw [List.countP_filter, List.countP_eq_countP_filter_add listed _ fun number =>
    (tasks[number]?).any fun task => task.table.fullName == name, Nat.add_comm, List.countP_filter,
    List.countP_filter]
  have named : ∀ number, Task.isAmong tasks names' number =
      (Task.isAmong tasks names number ||
        (tasks[number]?).any fun task => task.table.fullName == name) := by
    intro number
    unfold Task.isAmong
    cases tasks[number]? with
    | none => rfl
    | some task =>
      refine Bool.eq_iff_iff.mpr ?_
      simp only [Option.any_some, Bool.or_eq_true, List.contains_iff_mem, all, beq_iff_eq, or_comm]
  have apart : ∀ number, ((tasks[number]?).any fun task => task.table.fullName == name) = true →
      Task.isAmong tasks names number = false := by
    intro number mine
    unfold Task.isAmong
    cases found : tasks[number]? with
    | none => rfl
    | some task =>
      rw [found, Option.any_some, beq_iff_eq] at mine
      rw [Option.any_some, mine]
      exact Bool.eq_false_iff.mpr fun member => new (List.contains_iff_mem.mp member)
  congr 1 <;> refine List.countP_congr fun number _ => ?_ <;> rw [named] <;>
    cases mine : (tasks[number]?).any fun task => task.table.fullName == name <;>
    simp [apart number, mine]

end Custody

/-! ### Right notes -/

namespace Notes

/-- Whether notes are right about the finished tables and about those with a failed task. -/
structure Right (notes : Notes) (tasks : List Task) (listed : List Nat) (custody : Custody) :
    Prop where
  lists : notes.tables.Lists tasks listed
  failing : ∀ name ∈ notes.failed, ∃ number ∈ Task.listedOf tasks listed name,
    custody.Shows number .failed
  once : (notes.report.succeeded ++ notes.report.failed).Nodup
  finished : ∀ name, name ∈ notes.report.succeeded ++ notes.report.failed ↔
    ∃ group, (name, group) ∈ notes.tables ∧ group.finished = true
  succeeded : ∀ name ∈ notes.report.succeeded, ∀ number ∈ Task.listedOf tasks listed name,
    custody.Shows number .succeeded
  ended : ∀ name ∈ notes.report.failed, ∀ number ∈ Task.listedOf tasks listed name,
    custody.Closed number
  failed : ∀ name ∈ notes.report.failed, ∃ number ∈ Task.listedOf tasks listed name,
    custody.Shows number .failed
  succeededTasks : notes.report.succeededTasks =
    custody.tally tasks listed (notes.report.succeeded ++ notes.report.failed) .succeeded
  failedTasks : notes.report.failedTasks =
    custody.tally tasks listed (notes.report.succeeded ++ notes.report.failed) .failed

variable {notes : Notes} {tasks : List Task} {listed : List Nat} {custody next : Custody}
  {answers : Nat → Task → Action → Execution → Prop} {acts : List Act}

/-- The tasks of finished tables have come to their end. -/
theorem Right.closed (right : notes.Right tasks listed custody) {number : Nat}
    (member : number ∈ listed)
    (among : Task.isAmong tasks (notes.report.succeeded ++ notes.report.failed) number = true) :
    custody.Closed number := by
  obtain ⟨task, found, named⟩ := Task.isAmong_iff.mp among
  have mine : number ∈ Task.listedOf tasks listed task.table.fullName :=
    Task.mem_listedOf.mpr ⟨member, task, found, rfl⟩
  rcases List.mem_append.mp named with succeeded | failed
  · exact .inl (right.succeeded _ succeeded number mine)
  · exact right.ended _ failed number mine

/-- **They stay right** as long as nothing is noted. -/
theorem Right.step (right : notes.Right tasks listed custody)
    (step : custody.Step answers acts next) (sound : custody.Sound) :
    notes.Right tasks listed next := by
  have closed : ∀ {number}, custody.Closed number → next.Closed number := by
    rintro number (succeeded | failed)
    · exact .inl (succeeded.step rfl step sound)
    · exact .inr (failed.step rfl step sound)
  have tally : ∀ progress, progress.isTerminal = true →
      custody.tally tasks listed (notes.report.succeeded ++ notes.report.failed) progress =
        next.tally tasks listed (notes.report.succeeded ++ notes.report.failed) progress := by
    intro progress final
    refine Custody.tally_eq fun number member among =>
      ⟨fun shows => shows.step final step sound, fun shows => ?_⟩
    rcases right.closed member among with now | now
    · have later := now.step rfl step sound
      exact Option.some.inj (later.symm.trans shows) ▸ now
    · have later := now.step rfl step sound
      exact Option.some.inj (later.symm.trans shows) ▸ now
  exact {
    lists := right.lists
    failing := fun name member => by
      obtain ⟨number, mine, failed⟩ := right.failing name member
      exact ⟨number, mine, failed.step rfl step sound⟩
    once := right.once
    finished := right.finished
    succeeded := fun name member number mine =>
      (right.succeeded name member number mine).step rfl step sound
    ended := fun name member number mine => closed (right.ended name member number mine)
    failed := fun name member => by
      obtain ⟨number, mine, failed⟩ := right.failed name member
      exact ⟨number, mine, failed.step rfl step sound⟩
    succeededTasks := right.succeededTasks.trans (tally _ rfl)
    failedTasks := right.failedTasks.trans (tally _ rfl) }

/-- A table with a failed task may be noted as failed. -/
theorem Right.fail (right : notes.Right tasks listed custody) {name : String}
    (failing : ∃ number ∈ Task.listedOf tasks listed name, custody.Shows number .failed) :
    (notes.fail name).Right tasks listed custody where
  lists := right.lists
  failing other member := by
    rcases List.mem_append.mp member with old | new
    · exact right.failing other old
    · exact List.mem_singleton.mp new ▸ failing
  once := right.once
  finished := right.finished
  succeeded := right.succeeded
  ended := right.ended
  failed := right.failed
  succeededTasks := right.succeededTasks
  failedTasks := right.failedTasks

theorem Right.giveUp (right : notes.Right tasks listed custody) (key : String) :
    (notes.giveUp key).Right tasks listed custody where
  lists := right.lists
  failing := right.failing
  once := right.once
  finished := right.finished
  succeeded := right.succeeded
  ended := right.ended
  failed := right.failed
  succeededTasks := right.succeededTasks
  failedTasks := right.failedTasks

/-- Of tasks that have come to their end, those that did not fail have succeeded. -/
theorem countP_closed {numbers : List Nat} (closed : ∀ number ∈ numbers, custody.Closed number) :
    numbers.length - numbers.countP (fun number => decide (custody.Shows number .failed)) =
      numbers.countP fun number => decide (custody.Shows number .succeeded) := by
  have all := List.length_eq_countP_add_countP (fun number => decide (custody.Shows number .failed))
    (l := numbers)
  have others : numbers.countP (fun number => decide (¬ decide (custody.Shows number .failed) = true)) =
      numbers.countP fun number => decide (custody.Shows number .succeeded) := by
    refine List.countP_congr fun number member => ?_
    simp only [decide_eq_true_iff]
    refine ⟨fun apart => (closed number member).resolve_right apart, fun shows failed => ?_⟩
    cases shows.symm.trans failed
  omega

/-- A table that is finished is reported once more. -/
theorem finish_perm (notes : Notes) (key : String) (group : TableGroup) (isFailed : Bool)
    (failures : Nat) : ((notes.finish key group isFailed failures).report.succeeded ++
      (notes.finish key group isFailed failures).report.failed).Perm
        (group.fullName :: (notes.report.succeeded ++ notes.report.failed)) := by
  cases isFailed with
  | false =>
    show ((_ ++ [_]) ++ _ : List String).Perm _
    rw [List.append_assoc]
    exact List.perm_middle
  | true =>
    show (_ ++ (_ ++ [_]) : List String).Perm _
    rw [← List.append_assoc]
    exact List.perm_append_singleton _ _

/-- **A table that is finished with all its tasks is noted as what they make of it.** -/
theorem Right.finish (right : notes.Right tasks listed custody) {key : String}
    {group : TableGroup} {isFailed : Bool} {failures : Nat}
    (found : notes.tables.get? key = some group) (going : group.finished = false)
    (closed : ∀ number ∈ group.tasks, custody.Closed number)
    (judged : isFailed = true ↔ ∃ number ∈ group.tasks, custody.Shows number .failed)
    (counted : failures =
      group.tasks.countP fun number => decide (custody.Shows number .failed)) :
    (notes.finish key group isFailed failures).Right tasks listed custody := by
  have present := Keyed.mem_of_get? found
  obtain ⟨fullName, among, _⟩ := right.lists.groups _ present
  have fullName : group.fullName = key := fullName
  have among : group.tasks = Task.listedOf tasks listed key := among
  have new : key ∉ notes.report.succeeded ++ notes.report.failed := by
    intro old
    obtain ⟨other, member, done⟩ := (right.finished key).mp old
    cases found.symm.trans (right.lists.sorted.get?_of_mem member)
    rw [going] at done
    cases done
  have perm := finish_perm notes key group isFailed failures
  rw [fullName] at perm
  have names : ∀ name, name ∈ (notes.finish key group isFailed failures).report.succeeded ++
      (notes.finish key group isFailed failures).report.failed ↔
        name = key ∨ name ∈ notes.report.succeeded ++ notes.report.failed :=
    fun name => perm.mem_iff.trans List.mem_cons
  have failing : isFailed = true → ∃ number ∈ Task.listedOf tasks listed key,
      custody.Shows number .failed := fun yes => among ▸ judged.mp yes
  have succeeding : isFailed = false → ∀ number ∈ Task.listedOf tasks listed key,
      custody.Shows number .succeeded := by
    intro no number mine
    rw [← among] at mine
    refine (closed number mine).resolve_right fun failed => ?_
    rw [judged.mpr ⟨number, mine, failed⟩] at no
    cases no
  refine {
    lists := right.lists.finish found
    failing := right.failing
    once := perm.nodup_iff.mpr (List.nodup_cons.mpr ⟨new, right.once⟩)
    finished := fun name => (names name).trans ?_
    succeeded := fun name member number mine => ?_
    ended := fun name member number mine => ?_
    failed := fun name member => ?_
    succeededTasks := ?_
    failedTasks := ?_ }
  · rw [right.finished name]
    constructor
    · rintro (rfl | ⟨other, member, done⟩)
      · exact ⟨_, Keyed.mem_put_self _ _ _, rfl⟩
      · refine ⟨other, right.lists.sorted.mem_put.mpr (.inr ⟨member, ?_⟩), done⟩
        rintro rfl
        exact new ((right.finished name).mpr ⟨other, member, done⟩)
    · rintro ⟨other, member, done⟩
      rcases right.lists.sorted.mem_put.mp member with same | ⟨old, _⟩
      · exact .inl (congrArg Prod.fst same)
      · exact .inr ⟨other, old, done⟩
  · cases isFailed with
    | false =>
      rcases List.mem_append.mp member with old | same
      · exact right.succeeded name old number mine
      · rw [List.mem_singleton.mp same, fullName] at mine
        exact succeeding rfl number mine
    | true => exact right.succeeded name member number mine
  · cases isFailed with
    | false => exact right.ended name member number mine
    | true =>
      rcases List.mem_append.mp member with old | same
      · exact right.ended name old number mine
      · rw [List.mem_singleton.mp same, fullName, ← among] at mine
        exact closed number mine
  · cases isFailed with
    | false => exact right.failed name member
    | true =>
      rcases List.mem_append.mp member with old | same
      · exact right.failed name old
      · rw [List.mem_singleton.mp same, fullName]
        exact failing rfl
  · rw [Custody.tally_insert new names, ← right.succeededTasks, ← among, ← countP_closed closed,
      ← counted]
    rfl
  · rw [Custody.tally_insert new names, ← right.failedTasks, ← among, ← counted]
    rfl

end Notes

end TableMigration
