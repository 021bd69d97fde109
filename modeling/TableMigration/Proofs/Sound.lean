/-
**Every action on its way is where it should be.**

* `Task.MovesOn` is what all changes of a task in a run have in common: nothing that is settled
  changes any more, and nothing that has begun is new again.
* `Custody.Sound` — no action is on its way twice; one that is due is new, one that was handed out
  is running, and everything of a lower priority has succeeded.
* `Custody.Step.sound` and `Custody.Step.movesOn` — every step keeps a custody sound and moves the
  tasks on.
-/

import Mathlib.Data.Multiset.UnionInter
import TableMigration.Proofs.Custody

namespace TableMigration

/-! ### How tasks move on -/

namespace Task

variable {task before after : Task} {action other : Action} {reported : Progress}

/-- What the changes of a task have in common. -/
structure MovesOn (before after : Task) : Prop where
  kind : SameKind after before
  settled : ∀ action progress, before.actionProgress action = some progress →
    progress.isTerminal = true → after.actionProgress action = some progress
  begun : ∀ action progress, before.actionProgress action = some progress → progress ≠ .new →
    after.actionProgress action ≠ some .new
  ended : before.progress.isTerminal = true → after.progress = before.progress
  kept : before.WellKept → after.WellKept

theorem MovesOn.refl (task : Task) : MovesOn task task where
  kind := .refl task
  settled _ _ found _ := found
  begun _ _ found begun new := begun (Option.some.inj (found.symm.trans new))
  ended _ := rfl
  kept kept := kept

theorem movesOn_update (forward : reported ≠ .new) :
    MovesOn task (task.update action reported).task where
  kind := update_sameKind task action reported
  settled other progress found final := by
    by_cases taken : task.Takes action reported
    · rw [actionProgress_update taken]
      by_cases same : other = action
      · obtain ⟨now, found', _, going⟩ := taken
        rw [same, found'] at found
        cases found
        rw [final] at going
        cases going
      · rw [if_neg same, found]
    · rw [update_of_not_takes taken]
      exact found
  begun other progress found begun := by
    by_cases taken : task.Takes action reported
    · rw [actionProgress_update taken]
      by_cases same : other = action
      · rw [if_pos same]
        exact fun new => forward (Option.some.inj new)
      · rw [if_neg same, found]
        exact fun new => begun (Option.some.inj new)
    · rw [update_of_not_takes taken]
      exact fun new => begun (Option.some.inj (found.symm.trans new))
  ended := progress_update_of_ended
  kept kept := kept.update action reported

theorem movesOn_withCounts (task : Task) (action : Action) (execution : Execution) :
    MovesOn task (task.withCounts action execution) where
  kind := withCounts_sameKind task action execution
  settled other progress found _ := by rw [actionProgress_withCounts, found]
  begun other progress found begun new := by
    rw [actionProgress_withCounts, found] at new
    exact begun (Option.some.inj new)
  ended _ := progress_withCounts task action execution
  kept kept := kept.withCounts action execution

theorem movesOn_withValidation (task : Task) (execution : Execution) :
    MovesOn task (task.withValidation execution) where
  kind := withValidation_sameKind task execution
  settled other progress found _ := by rw [actionProgress_withValidation, found]
  begun other progress found begun new := by
    rw [actionProgress_withValidation, found] at new
    exact begun (Option.some.inj new)
  ended _ := progress_withValidation task execution
  kept kept := kept.withValidation execution

/-- An action that a task has is found after the task has moved on. -/
theorem MovesOn.found (on : MovesOn before after) {progress : Progress}
    (found : before.actionProgress action = some progress) :
    ∃ progress', after.actionProgress action = some progress' := by
  refine Option.isSome_iff_exists.mp ?_
  rw [← has_eq, on.kind.has, has_eq, found]
  rfl

/-- What was cleared stays cleared. -/
theorem MovesOn.cleared (on : MovesOn before after) (cleared : before.Cleared action) :
    after.Cleared action := by
  intro lower under progress found
  have present : before.has lower = true := by
    rw [← on.kind.has, has_eq, found]
    rfl
  rw [has_eq] at present
  obtain ⟨old, found'⟩ := Option.isSome_iff_exists.mp present
  have succeeded := cleared lower under old found'
  subst succeeded
  rw [on.settled lower .succeeded found' rfl] at found
  exact (Option.some.inj found).symm

end Task

/-! ### Sound custodies -/

/-- The progress of an action on its way. -/
def Station.progress : Station → Progress
  | .due => .new
  | _ => .running

/-- The result that an action on its way has. -/
def Station.execution? : Station → Option Execution
  | .counting execution | .dividing execution | .reporting execution => some execution
  | _ => none

/-- Whether an action on its way is where its task says. -/
def Item.Placed (tasks : Nat → Option Task) (item : Item) : Prop :=
  ∃ task, tasks item.task = some task ∧
    task.actionProgress item.action = some item.station.progress ∧ task.Cleared item.action

namespace Custody

/-- Whether the actions on their way are where they should be. -/
structure Sound (custody : Custody) : Prop where
  distinct : (custody.items.map Item.key).Nodup
  placed : ∀ item ∈ custody.items, item.Placed custody.tasks
  final : ∀ item ∈ custody.items, ∀ execution, item.station.execution? = some execution →
    execution.progress.isTerminal = true

variable {custody next : Custody} {item other : Item} {others : Multiset Item}

/-- No action is on its way twice. -/
theorem Sound.apart (sound : custody.Sound) (held : custody.items = item ::ₘ others)
    (member : other ∈ others) : other.key ≠ item.key := by
  have distinct := sound.distinct
  rw [held, Multiset.map_cons, Multiset.nodup_cons] at distinct
  exact fun same => distinct.1 (same ▸ Multiset.mem_map_of_mem _ member)

/-- An action on its way is in one place. -/
theorem Sound.unique (sound : custody.Sound) (member : item ∈ custody.items)
    (member' : other ∈ custody.items) (same : item.key = other.key) : item = other := by
  obtain ⟨others, held⟩ := Multiset.exists_cons_of_mem member
  rw [held, Multiset.mem_cons] at member'
  rcases member' with equal | behind
  · exact equal.symm
  · exact absurd same.symm (sound.apart held behind)

theorem Sound.held (sound : custody.Sound) (held : custody.items = item ::ₘ others) {task : Task}
    (found : custody.tasks item.task = some task) :
    task.actionProgress item.action = some item.station.progress ∧ task.Cleared item.action := by
  obtain ⟨task', found', placed⟩ := sound.placed item (held ▸ Multiset.mem_cons_self _ _)
  rw [found] at found'
  cases found'
  exact placed

/-- Another action on its way is not disturbed by a change of a task. -/
theorem placed_of_ne {tasks : Nat → Option Task} {number : Nat} {task changed : Task}
    {action : Action} (placed : item.Placed tasks) (found : tasks number = some task)
    (on : task.MovesOn changed)
    (alone : ∀ other, other ≠ action → changed.actionProgress other = task.actionProgress other)
    (apart : item.key ≠ (number, action)) :
    item.Placed fun other => if other = number then some changed else tasks other := by
  obtain ⟨old, found', progress, cleared⟩ := placed
  by_cases same : item.task = number
  · rw [same, found] at found'
    cases found'
    refine ⟨changed, if_pos same, ?_, on.cleared cleared⟩
    rw [alone item.action fun equal => apart (Prod.ext same equal), progress]
  · exact ⟨old, (if_neg same).trans found', progress, cleared⟩

/-! ### Steps -/

variable {answers : Nat → Task → Action → Execution → Prop} {acts : List Act}

theorem forward_of_result {station : Station} {result : Progress}
    (final : ∀ execution, station.execution? = some execution →
      execution.progress.isTerminal = true)
    (reported : station.result? = some result) : result.isTerminal = true := by
  cases station <;> cases reported
  · rfl
  · exact final _ rfl

theorem ne_new_of_isTerminal {progress : Progress} (final : progress.isTerminal = true) :
    progress ≠ .new := by
  rintro rfl
  cases final

/-- A step changes no task or one, and this one moves on. -/
theorem Step.change (step : custody.Step answers acts next) (sound : custody.Sound) :
    next.tasks = custody.tasks ∨ ∃ number task changed, custody.tasks number = some task ∧
      next.tasks = (custody.setTask number changed).tasks ∧ task.MovesOn changed := by
  cases step with
  | dispatch held found =>
    exact .inr ⟨_, _, _, found, rfl, Task.movesOn_update nofun⟩
  | keepCounts held found =>
    exact .inr ⟨_, _, _, found, rfl, Task.movesOn_withCounts _ _ _⟩
  | keepValidation held found =>
    exact .inr ⟨_, _, _, found, rfl, Task.movesOn_withValidation _ _⟩
  | settle held found reported =>
    refine .inr ⟨_, _, _, found, rfl, Task.movesOn_update (ne_new_of_isTerminal ?_)⟩
    exact forward_of_result (sound.final _ (held ▸ Multiset.mem_cons_self _ _)) reported
  | quiet => exact .inl rfl
  | findEnded _ _ _ _ => exact .inl rfl
  | look _ _ _ => exact .inl rfl
  | collect _ _ _ => exact .inl rfl
  | miss _ _ => exact .inl rfl
  | lose _ _ => exact .inl rfl
  | pass _ _ _ => exact .inl rfl

/-- **Tasks move on.** -/
theorem Step.movesOn (step : custody.Step answers acts next) (sound : custody.Sound) {number : Nat}
    {task : Task} (found : custody.tasks number = some task) :
    ∃ after, next.tasks number = some after ∧ task.MovesOn after := by
  rcases step.change sound with same | ⟨other, old, changed, found', after, on⟩
  · exact ⟨task, same ▸ found, .refl task⟩
  · by_cases equal : number = other
    · subst equal
      rw [found] at found'
      cases found'
      exact ⟨changed, after ▸ if_pos rfl, on⟩
    · exact ⟨task, after ▸ (if_neg equal).trans found, .refl task⟩

/-- No task comes into being. -/
theorem Step.origin (step : custody.Step answers acts next) (sound : custody.Sound) {number : Nat}
    {after : Task} (found : next.tasks number = some after) :
    ∃ task, custody.tasks number = some task ∧ task.MovesOn after := by
  cases before : custody.tasks number with
  | some task =>
    obtain ⟨after', found', on⟩ := step.movesOn sound before
    rw [found] at found'
    cases found'
    exact ⟨task, rfl, on⟩
  | none =>
    rcases step.change sound with same | ⟨other, old, changed, found', same, _⟩
    · rw [same, before] at found
      cases found
    · rw [same] at found
      by_cases equal : number = other
      · rw [equal, found'] at before
        cases before
      · rw [show (custody.setTask other changed).tasks number = _ from if_neg equal, before] at found
        cases found

/-- What is known about the other actions on their way after a task has moved on. -/
theorem Sound.release {number : Nat} {action : Action} {station : Station} {task changed : Task}
    (sound : custody.Sound) (held : custody.items = ⟨number, action, station⟩ ::ₘ others)
    (found : custody.tasks number = some task) (on : task.MovesOn changed)
    (alone : ∀ other, other ≠ action → changed.actionProgress other = task.actionProgress other) :
    Sound { custody.setTask number changed with items := others } where
  distinct := by
    have distinct := sound.distinct
    rw [held, Multiset.map_cons, Multiset.nodup_cons] at distinct
    exact distinct.2
  placed item member := by
    refine placed_of_ne (sound.placed item ?_) found on alone (sound.apart held member)
    exact held ▸ Multiset.mem_cons_of_mem member
  final item member := sound.final item (held ▸ Multiset.mem_cons_of_mem member)

/-- An action goes on to the next station. -/
theorem Sound.exchange {number : Nat} {action : Action} {station later : Station}
    {task changed : Task} (sound : custody.Sound)
    (held : custody.items = ⟨number, action, station⟩ ::ₘ others)
    (found : custody.tasks number = some task) (on : task.MovesOn changed)
    (alone : ∀ other, other ≠ action → changed.actionProgress other = task.actionProgress other)
    (progress : changed.actionProgress action = some later.progress)
    (final : ∀ execution, later.execution? = some execution →
      execution.progress.isTerminal = true) :
    Sound { custody.setTask number changed with items := ⟨number, action, later⟩ ::ₘ others } := by
  have rest := sound.release held found on alone
  refine ⟨?_, fun item member => ?_, fun item member => ?_⟩
  · have distinct := sound.distinct
    rw [held, Multiset.map_cons] at distinct
    exact (Multiset.map_cons _ _ _).symm ▸ distinct
  · rcases Multiset.mem_cons.mp member with rfl | behind
    · exact ⟨changed, if_pos rfl, progress, on.cleared (sound.held held found).2⟩
    · exact rest.placed item behind
  · rcases Multiset.mem_cons.mp member with rfl | behind
    · exact final
    · exact rest.final item behind

theorem setTask_self {number : Nat} {task : Task} (found : custody.tasks number = some task) :
    custody.setTask number task = custody := by
  refine Custody.ext (funext fun other => ?_) rfl rfl
  show (if other = number then some task else custody.tasks other) = custody.tasks other
  split
  · rename_i same
    rw [same, found]
  · rfl

/-- The progress of an action that is waiting for a report is open to it. -/
theorem Sound.takes {number : Nat} {action : Action} {station : Station} {task : Task}
    (sound : custody.Sound) (held : custody.items = ⟨number, action, station⟩ ::ₘ others)
    (found : custody.tasks number = some task) {reported : Progress}
    (forward : station.progress ≠ reported) : task.Takes action reported := by
  refine ⟨station.progress, (sound.held held found).1, forward, ?_⟩
  cases station <;> rfl

theorem alone_update {task : Task} {action : Action} {reported : Progress} (other : Action)
    (apart : other ≠ action) :
    (task.update action reported).task.actionProgress other = task.actionProgress other :=
  Task.actionProgress_update_of_ne apart

theorem progress_of_result {station : Station} {result : Progress}
    (reported : station.result? = some result) : station.progress = .running := by
  cases station <;> cases reported <;> rfl

/-- Collecting brings new actions on their way, and none that is on its way already. -/
theorem Sound.collect {number : Nat} {rest : List Nat} {task : Task} (sound : custody.Sound)
    (idle : custody.Idle) (found : custody.tasks number = some task) :
    Sound { custody with
      looked := rest
      items := (task.readyActions.map (Item.mk number · .due) : List Item) + custody.items } where
  distinct := by
    rw [Multiset.map_add, Multiset.nodup_add]
    refine ⟨?_, sound.distinct, Multiset.disjoint_left.mpr fun new old => ?_⟩
    · rw [Multiset.map_coe, Multiset.coe_nodup, List.map_map]
      exact List.Nodup.map (fun first second same => (Prod.ext_iff.mp same).2)
        task.readyActions_nodup
    · obtain ⟨item, member, rfl⟩ := Multiset.mem_map.mp new
      obtain ⟨action, ready, rfl⟩ := List.mem_map.mp (Multiset.mem_coe.mp member)
      obtain ⟨other, member', same⟩ := Multiset.mem_map.mp old
      obtain ⟨task', found', progress, _⟩ := sound.placed other member'
      obtain ⟨rfl, rfl⟩ : other.task = number ∧ other.action = action := Prod.ext_iff.mp same
      rw [found] at found'
      cases found'
      have new := (Task.isReady_iff.mp (Task.mem_readyActions.mp ready)).1
      rw [progress] at new
      refine idle other member' ?_
      obtain ⟨_, _, station⟩ := other
      cases station <;> first | rfl | cases new
  placed item member := by
    rcases Multiset.mem_add.mp member with new | old
    · obtain ⟨action, ready, rfl⟩ := List.mem_map.mp (Multiset.mem_coe.mp new)
      exact ⟨task, found, Task.isReady_iff.mp (Task.mem_readyActions.mp ready)⟩
    · exact sound.placed item old
  final item member := by
    rcases Multiset.mem_add.mp member with new | old
    · obtain ⟨action, _, rfl⟩ := List.mem_map.mp (Multiset.mem_coe.mp new)
      exact fun _ none => nomatch none
    · exact sound.final item old

/-- No action on its way is lost: its task is there. -/
theorem Sound.not_lost (sound : custody.Sound) {item : Item} {others : Multiset Item}
    (held : custody.items = item ::ₘ others) : custody.tasks item.task ≠ none := by
  obtain ⟨_, found, _⟩ := sound.placed _ (held ▸ Multiset.mem_cons_self _ _)
  rw [found]
  exact nofun

/-- **A sound custody stays sound.** -/
theorem Step.sound (step : custody.Step answers acts next) (sound : custody.Sound)
    (finishing : ∀ number task action execution,
      answers number task action execution → execution.progress.isTerminal = true) :
    next.Sound := by
  cases step with
  | quiet => exact sound
  | findEnded _ _ _ _ => exact sound
  | look _ _ _ => exact ⟨sound.distinct, sound.placed, sound.final⟩
  | miss _ _ => exact ⟨sound.distinct, sound.placed, sound.final⟩
  | collect head found idle => exact sound.collect idle found
  | lose held absent => exact absurd absent (sound.not_lost held)
  | dispatch held found =>
    have taken : Task.Takes _ _ .running := sound.takes held found nofun
    refine sound.exchange held found (Task.movesOn_update nofun) alone_update ?_ nofun
    rw [Task.actionProgress_update taken, if_pos rfl]
    rfl
  | @pass number action station acts later task others held found passes =>
    have stays : Sound { custody.setTask number task with
        items := ⟨number, action, later⟩ ::ₘ others } := by
      refine sound.exchange held found (.refl task) (fun _ _ => rfl) ?_ ?_
      · rw [(sound.held held found).1]
        cases passes <;> rfl
      · cases passes with
        | accept => nofun
        | turnAway => nofun
        | execute answer =>
          intro execution executed
          cases executed
          exact finishing _ _ _ _ answer
    rwa [setTask_self found] at stays
  | keepCounts held found =>
    refine sound.exchange held found (Task.movesOn_withCounts _ _ _)
      (fun _ _ => Task.actionProgress_withCounts ..) ?_
      (sound.final _ (held ▸ Multiset.mem_cons_self _ _))
    rw [Task.actionProgress_withCounts, (sound.held held found).1]
    rfl
  | keepValidation held found =>
    refine sound.exchange held found (Task.movesOn_withValidation _ _)
      (fun _ _ => Task.actionProgress_withValidation ..) ?_
      (sound.final _ (held ▸ Multiset.mem_cons_self _ _))
    rw [Task.actionProgress_withValidation, (sound.held held found).1]
    rfl
  | settle held found reported =>
    have final := forward_of_result (sound.final _ (held ▸ Multiset.mem_cons_self _ _)) reported
    exact sound.release held found (Task.movesOn_update (ne_new_of_isTerminal final)) alone_update

end Custody

end TableMigration
