/-
**Tasks that had begun before the run.**

* `Custody.Open` — an action can be handed out by a run if it is new when the run begins and its task
  has not come to its end. Nothing else ever happens to an action: `Custody.Since` says so of
  everything a run has come to, and of the tasks what is known of them all along, however far they had
  come before.
* `Custody.Since.step` — every step keeps to it.
* `Custody.Since.stands`, `Custody.Since.not_new` — where the open actions stand in the end.
-/

import TableMigration.Proofs.Account
import TableMigration.Proofs.Coverage

namespace TableMigration

/-! ### Tasks that may go on -/

namespace Task

variable {first second third : Task}

/-- Whether the progress of a task is what its actions make of it, as long as it goes on. -/
def Honest (task : Task) : Prop :=
  task.progress.isTerminal = false → task.Judged

theorem MovesOn.trans (one : MovesOn first second) (other : MovesOn second third) :
    MovesOn first third where
  kind := other.kind.trans one.kind
  settled action progress found final :=
    other.settled action progress (one.settled action progress found final) final
  begun action progress found begun := by
    obtain ⟨between, found'⟩ := one.found found
    refine other.begun action between found' fun new => ?_
    exact one.begun action progress found begun (new ▸ found')
  ended ended := by
    have same := one.ended ended
    rw [other.ended (same ▸ ended), same]
  kept kept := other.kept (one.kept kept)

/-- A task that goes on and is honest has no failed action. -/
theorem Honest.not_failed {task : Task} {action : Action} (honest : task.Honest)
    (going : task.progress.isTerminal = false) : task.actionProgress action ≠ some .failed := by
  intro failed
  have ended := (honest going).failed.mpr ⟨action, failed⟩
  rw [ended] at going
  cases going

end Task

/-! ### What a step is about -/

namespace Custody

variable {start custody next : Custody} {answers : Nat → Task → Action → Execution → Prop}
  {acts new : List Act} {number : Nat} {action : Action} {task after : Task}

/-- A property of tasks that reports, counts and divisions keep is kept by every step. -/
theorem Step.keeps_tasks {holds : Nat → Task → Prop} (step : custody.Step answers new next)
    (update : ∀ number task action reported, holds number task →
      holds number (task.update action reported).task)
    (counts : ∀ number task action execution, holds number task →
      holds number (task.withCounts action execution))
    (division : ∀ number task execution, holds number task →
      holds number (task.withValidation execution))
    (now : ∀ number task, custody.tasks number = some task → holds number task) :
    ∀ number task, next.tasks number = some task → holds number task := by
  have set : ∀ {number task}, holds number task → ∀ other after,
      (custody.setTask number task).tasks other = some after → holds other after := by
    intro number task changed other after found
    by_cases equal : other = number
    · cases (if_pos equal).symm.trans found
      exact equal ▸ changed
    · exact now other after ((if_neg equal).symm.trans found)
  cases step with
  | quiet | findEnded | look | miss | collect | lose | pass => exact now
  | dispatch held found | settle held found => exact set (update _ _ _ _ (now _ _ found))
  | keepCounts held found => exact set (counts _ _ _ _ (now _ _ found))
  | keepValidation held found => exact set (division _ _ _ (now _ _ found))

/-- Tasks of some sort that are judged by their actions stay so. -/
theorem Step.judged {among : Nat → Prop} (step : custody.Step answers new next)
    (now : ∀ number task, custody.tasks number = some task → among number → task.Judged) :
    ∀ number task, next.tasks number = some task → among number → task.Judged := by
  refine step.keeps_tasks (fun _ _ _ _ judged mine => ?_) (fun _ _ _ _ judged mine => ?_)
    (fun _ _ _ judged mine => ?_) now
  · exact (judged mine).update _ _
  · exact (judged mine).of_same (Task.progress_withCounts ..)
      fun _ => Task.actionProgress_withCounts ..
  · exact (judged mine).of_same (Task.progress_withValidation ..)
      fun _ => Task.actionProgress_withValidation ..

/-- What is told in a step is told of an action on its way. -/
theorem Step.held_of_concerns (step : custody.Step answers new next) {act : Act}
    (member : act ∈ new) (concerned : act.concerns number action = true) :
    ∃ item ∈ custody.items, item.task = number ∧ item.action = action := by
  have mine : ∀ {other act' station others}, custody.items = ⟨other, act', station⟩ ::ₘ others →
      other = number ∧ act' = action →
      ∃ item ∈ custody.items, item.task = number ∧ item.action = action :=
    fun held same => ⟨_, held ▸ Multiset.mem_cons_self _ _, same⟩
  cases step with
  | findEnded =>
    obtain ⟨_, _, rfl⟩ := List.mem_map.mp member
    cases concerned
  | dispatch held =>
    cases List.mem_singleton.mp member
    exact mine held (of_decide_eq_true concerned)
  | pass held found passes =>
    cases passes with
    | accept => cases member
    | turnAway | execute =>
      cases List.mem_singleton.mp member
      exact mine held (of_decide_eq_true concerned)
  | _ => cases member

/-- An action that is not on its way stays where it is. -/
theorem Step.actionProgress_of_away (step : custody.Step answers new next)
    (away : ∀ item ∈ custody.items, item.task = number → item.action ≠ action)
    (found : custody.tasks number = some task) (found' : next.tasks number = some after) :
    after.actionProgress action = task.actionProgress action := by
  have unmoved : custody.tasks number = some after →
      after.actionProgress action = task.actionProgress action := by
    intro same
    cases found.symm.trans same
    rfl
  have set : ∀ {other act station others old changed},
      custody.items = ⟨other, act, station⟩ ::ₘ others → custody.tasks other = some old →
      (custody.setTask other changed).tasks number = some after →
      (∀ action, action ≠ act → changed.actionProgress action = old.actionProgress action) →
      after.actionProgress action = task.actionProgress action := by
    intro other act station others old changed held known later alone
    by_cases equal : number = other
    · subst equal
      cases (if_pos rfl).symm.trans later
      cases found.symm.trans known
      exact alone action (away _ (held ▸ Multiset.mem_cons_self _ _) rfl).symm
    · exact unmoved ((if_neg equal).symm.trans later)
  cases step with
  | quiet | findEnded | look | miss | collect | lose | pass => exact unmoved found'
  | dispatch held known | settle held known => exact set held known found' alone_update
  | keepCounts held known =>
    exact set held known found' fun _ _ => Task.actionProgress_withCounts ..
  | keepValidation held known =>
    exact set held known found' fun _ _ => Task.actionProgress_withValidation ..

/-! ### What is known all along -/

/-- Whether an action can be handed out by a run that begins so: it is new, and its task has not come
to its end. -/
def Open (start : Custody) (number : Nat) (action : Action) : Prop :=
  ∃ task, start.tasks number = some task ∧ task.progress.isTerminal = false ∧
    task.actionProgress action = some .new

/-- What is known of tasks that are run, however far they had come. Nothing happens to a task that
had ended before, nor to an action that was not new, and the others are accounted for. -/
structure Since (start : Custody) (acts : List Act) (custody : Custody) : Prop where
  coherent : Coherent start acts custody
  moved : ∀ number task, custody.tasks number = some task →
    ∃ initial, start.tasks number = some initial ∧ initial.MovesOn task
  looked : ∀ number ∈ custody.looked, ¬ start.Ended number
  items : ∀ item ∈ custody.items, start.Open item.task item.action
  told : ∀ act ∈ acts, ∀ number action, act.concerns number action = true →
    start.Open number action
  kept : ∀ number action initial task, ¬ start.Open number action →
    start.tasks number = some initial → custody.tasks number = some task →
    task.actionProgress action = initial.actionProgress action
  spared : ∀ number, start.Ended number → custody.tasks number = start.tasks number
  accounted : custody.Accounted start.Open acts
  tiered : custody.Tiered start.Open
  honest : ∀ number initial, start.tasks number = some initial → initial.Honest
  judged : ∀ number task, custody.tasks number = some task → ∀ initial,
    start.tasks number = some initial → initial.progress.isTerminal = false → task.Judged

theorem not_ended_of_open (free : start.Open number action) : ¬ start.Ended number := by
  obtain ⟨task, found, going, _⟩ := free
  intro ended
  rw [ended task found] at going
  cases going

/-- A task that had not come to its end before the run is judged by its actions. -/
theorem Since.judged_of_going (since : Since start acts custody) (going : ¬ start.Ended number)
    (found : custody.tasks number = some task) : task.Judged := by
  obtain ⟨initial, began, _⟩ := since.moved number task found
  refine since.judged number task found initial began ?_
  by_contra gone
  refine going fun task' known => ?_
  rw [Option.some.inj (known.symm.trans began)]
  exact Bool.not_eq_false _ ▸ gone

/-- An action that is new was new at the outset. -/
theorem Since.open_of_new (since : Since start acts custody) (going : ¬ start.Ended number)
    (found : custody.tasks number = some task) (new : task.actionProgress action = some .new) :
    start.Open number action := by
  obtain ⟨initial, began, on⟩ := since.moved number task found
  have present : initial.has action = true := by
    rw [← on.kind.has, Task.has_eq, new]
    rfl
  rw [Task.has_eq] at present
  obtain ⟨progress, old⟩ := Option.isSome_iff_exists.mp present
  refine ⟨initial, began, ?_, ?_⟩
  · by_contra ended
    refine going fun task' known => ?_
    cases began.symm.trans known
    exact Bool.not_eq_false _ ▸ ended
  · by_cases begun : progress = .new
    · exact begun ▸ old
    · exact absurd new (on.begun action progress old begun)

/-- Every action on its way is open after a step as well. -/
theorem Since.step_items (since : Since start acts custody)
    (step : custody.Step answers new next) :
    ∀ item ∈ next.items, start.Open item.task item.action := by
  have goesOn : ∀ {number action station later others},
      custody.items = ⟨number, action, station⟩ ::ₘ others →
      ∀ item ∈ (⟨number, action, later⟩ ::ₘ others : Multiset Item),
        start.Open item.task item.action := by
    intro number action station later others held item member
    rcases Multiset.mem_cons.mp member with rfl | behind
    · exact since.items ⟨number, action, station⟩ (held ▸ Multiset.mem_cons_self _ _)
    · exact since.items item (held ▸ Multiset.mem_cons_of_mem behind)
  cases step with
  | quiet | findEnded | look | miss => exact since.items
  | @collect number rest task head found idle =>
    intro item member
    rcases Multiset.mem_add.mp member with collected | old
    · obtain ⟨action, ready, rfl⟩ := List.mem_map.mp (Multiset.mem_coe.mp collected)
      have going := since.looked number (head ▸ List.mem_cons_self)
      exact since.open_of_new going found
        (Task.isReady_iff.mp (Task.mem_readyActions.mp ready)).1
    · exact since.items item old
  | lose held | settle held =>
    exact fun item member => since.items item (held ▸ Multiset.mem_cons_of_mem member)
  | dispatch held | pass held | keepCounts held | keepValidation held => exact goesOn held

theorem Since.step_looked (since : Since start acts custody)
    (step : custody.Step answers new next) : ∀ number ∈ next.looked, ¬ start.Ended number := by
  cases step with
  | look going =>
    intro number member ended
    cases List.mem_singleton.mp member
    refine going fun task found => ended task ?_
    rwa [since.spared _ ended] at found
  | collect head | miss head =>
    exact fun number member => since.looked number (head ▸ List.mem_cons_of_mem _ member)
  | _ => exact since.looked

/-- **Every step keeps to what is known.** -/
theorem Since.step (since : Since start acts custody) (step : custody.Step answers new next)
    (finishing : ∀ number task action execution,
      answers number task action execution → execution.progress.isTerminal = true) :
    Since start (acts ++ new) next where
  coherent := since.coherent.step step finishing
  moved number after found := by
    obtain ⟨task, found', on⟩ := step.origin since.coherent.sound found
    obtain ⟨initial, began, before⟩ := since.moved number task found'
    exact ⟨initial, began, before.trans on⟩
  looked := since.step_looked step
  items := since.step_items step
  told act member number action concerned := by
    rcases List.mem_append.mp member with old | fresh
    · exact since.told act old number action concerned
    · obtain ⟨item, held, rfl, rfl⟩ := step.held_of_concerns fresh concerned
      exact since.items item held
  kept number action initial after closed began found := by
    obtain ⟨task, found', _⟩ := step.origin since.coherent.sound found
    rw [step.actionProgress_of_away (fun item held same same' => ?_) found' found]
    · exact since.kept number action initial task closed began found'
    · exact closed (same ▸ same' ▸ since.items item held)
  spared number ended := by
    rw [step.unmoved fun item held same => ?_]
    · exact since.spared number ended
    · exact not_ended_of_open (since.items item held) (same ▸ ended)
  accounted := step.accounted since.coherent.sound since.coherent.tells since.accounted
  tiered := step.tiered since.coherent.sound since.tiered
  honest := since.honest
  judged number after found initial began going := by
    have judged : ∀ number task, next.tasks number = some task →
        (∃ initial, start.tasks number = some initial ∧ initial.progress.isTerminal = false) →
        task.Judged :=
      step.judged fun number task found ⟨initial, began, going⟩ =>
        since.judged number task found initial began going
    exact judged number after found ⟨initial, began, going⟩

/-- Nothing is known of honest tasks that rest but that they are honest. -/
theorem Resting.since (resting : start.Resting)
    (honest : ∀ number task, start.tasks number = some task → task.Honest) :
    Since start [] start where
  coherent := resting.coherent
  moved number task found := ⟨task, found, .refl task⟩
  looked number member := by
    rw [resting.looked] at member
    cases member
  items item member := by
    rw [resting.items] at member
    exact absurd member (Multiset.notMem_zero _)
  told _ member := by cases member
  kept number action initial task _ began found := by
    cases began.symm.trans found
    rfl
  spared _ _ := rfl
  accounted number action task progress free found now := by
    obtain ⟨task', found', _, new⟩ := free
    cases found.symm.trans found'
    cases now.symm.trans new
    trivial
  tiered number task action other _ free found _ _ beside := by
    rcases beside with due | ⟨progress, now, begun⟩
    · rw [resting.items] at due
      exact absurd due (Multiset.notMem_zero _)
    · obtain ⟨task', found', _, new⟩ := free
      cases found.symm.trans found'
      exact absurd (Option.some.inj (now.symm.trans new)) begun
  honest := honest
  judged number task found initial began going := by
    rw [Option.some.inj (found.symm.trans began)]
    exact honest number initial began going

/-! ### Where open actions stand -/

/-- Nothing is told of an action that was not open. -/
theorem Since.about_eq_nil (since : Since start acts custody)
    (closed : ¬ start.Open number action) : Act.about number action acts = [] := by
  refine List.filter_eq_nil_iff.mpr fun act member concerned => closed ?_
  exact since.told act member number action concerned

/-- An action that has failed in the run was open. -/
theorem Since.open_of_failed (since : Since start acts custody) (going : ¬ start.Ended number)
    (found : custody.tasks number = some task)
    (failed : task.actionProgress action = some .failed) : start.Open number action := by
  obtain ⟨initial, began, _⟩ := since.moved number task found
  by_contra closed
  have old := since.kept number action initial task closed began found
  refine going fun task' known => ?_
  rw [Option.some.inj (known.symm.trans began)]
  by_contra goes
  exact (since.honest number initial began).not_failed (Bool.not_eq_true _ ▸ goes) (old ▸ failed)

/-- An action that has failed in the run was cleared. -/
theorem Since.cleared_of_failed (since : Since start acts custody) (going : ¬ start.Ended number)
    (found : custody.tasks number = some task)
    (failed : task.actionProgress action = some .failed) : task.Cleared action := by
  have cleared : ∀ {act}, act ∈ acts → act.concerns number action = true → task.Cleared action :=
    fun member concerned => since.coherent.tells.cleared found member concerned
  have free := since.open_of_failed going found failed
  rcases since.accounted number action task .failed free found failed with
    refused | ⟨_, executed, _⟩
  · exact cleared refused (Act.concerns_self number action).2.1
  · exact cleared executed ((Act.concerns_self number action).2.2 _)

/-- Where an open action stands that is not on its way. -/
inductive Stands (acts : List Act) (number : Nat) (task : Task) (action : Action) : Prop
  | new (progress : task.actionProgress action = some .new)
    (told : Act.about number action acts = [])
  | refused (progress : task.actionProgress action = some .failed) (cleared : task.Cleared action)
    (told : Act.about number action acts =
      [.dispatched number action, .refused number action])
  | executed (execution : Execution)
    (progress : task.actionProgress action = some execution.progress)
    (final : execution.progress.isTerminal = true) (cleared : task.Cleared action)
    (told : Act.about number action acts =
      [.dispatched number action, .executed number action execution])

/-- Every open action that is not on its way stands somewhere. -/
theorem Since.stands (since : Since start acts custody) (away : custody.items = 0)
    (found : custody.tasks number = some task) (free : start.Open number action) :
    Stands acts number task action := by
  obtain ⟨initial, began, on⟩ := since.moved number task found
  have present : task.has action = true := by
    obtain ⟨initial', began', _, new⟩ := free
    cases began.symm.trans began'
    rw [on.kind.has, Task.has_eq, new]
    rfl
  rw [Task.has_eq] at present
  obtain ⟨progress, now⟩ := Option.isSome_iff_exists.mp present
  have explains := since.accounted number action task progress free found now
  obtain ⟨_, story, _, told⟩ := since.coherent.tells number action
  have cleared : ∀ {act}, act ∈ acts → act.concerns number action = true → task.Cleared action :=
    fun member concerned => since.coherent.tells.cleared found member concerned
  have executed : ∀ {execution}, .executed number action execution ∈ acts →
      execution.progress = progress → progress.isTerminal = true →
      Stands acts number task action := by
    intro execution executed same final
    refine .executed execution (same ▸ now) (same ▸ final) ?_ (story.about_of_executed executed)
    exact cleared executed ((Act.concerns_self number action).2.2 execution)
  cases progress with
  | new =>
    refine .new now ?_
    by_contra spoken
    obtain ⟨task', known, ⟨progress, now', begun⟩, _⟩ := told spoken
    cases found.symm.trans known
    exact begun (Option.some.inj (now'.symm.trans now))
  | running =>
    obtain ⟨station, _, member⟩ := explains
    rw [away] at member
    exact absurd member (Multiset.notMem_zero _)
  | succeeded =>
    obtain ⟨execution, done, result⟩ := explains
    exact executed done result rfl
  | failed =>
    rcases explains with rejected | ⟨execution, done, result⟩
    · exact .refused now (cleared rejected (Act.concerns_self number action).2.1)
        (story.about_of_refused rejected)
    · exact executed done result rfl

/-- A task that nothing will happen to has handed out whatever it could. -/
theorem Since.not_new (since : Since start acts custody) (away : custody.items = 0)
    (left : custody.Left number) (found : custody.tasks number = some task)
    (free : start.Open number action) (cleared : task.Cleared action) :
    task.actionProgress action ≠ some .new := by
  intro new
  have idle : ∀ {item : Item}, item ∉ custody.items := by
    intro item
    rw [away]
    exact Multiset.notMem_zero item
  have ready : task.readyActions ≠ [] :=
    List.ne_nil_of_mem (Task.mem_readyActions.mpr (Task.isReady_iff.mpr ⟨new, cleared⟩))
  have ended : task.progress.isTerminal = true := by
    rcases left with ended | ⟨settled, _⟩
    · exact ended task found
    · exact (settled task found).resolve_right ready
  have going := not_ended_of_open free
  have judged := since.judged_of_going going found
  have failed : task.progress = .failed := by
    cases progress : task.progress with
    | failed => rfl
    | succeeded => cases (judged.succeeded.mp progress).2 action .new new
    | new | running =>
      rw [progress] at ended
      cases ended
  obtain ⟨bad, failed⟩ := judged.failed.mp failed
  have free' := since.open_of_failed going found failed
  have cleared' := since.cleared_of_failed going found failed
  rcases Nat.lt_trichotomy bad.priority action.priority with below | same | above
  · cases cleared bad below .failed failed
  · exact idle (since.tiered number task action bad free free' found same.symm new
      (.inr ⟨.failed, failed, nofun⟩))
  · cases cleared' action above .new new

end Custody

end TableMigration
