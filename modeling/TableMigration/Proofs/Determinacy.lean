/-
**How a run leaves fresh tasks.**

* `Custody.Certain` — all that is known about fresh tasks while they are run by engines whose answers
  keep to what their briefs allow. Every step keeps to it (`Custody.Certain.step`): in particular an
  action that was executed has a result that its brief allows, since nothing below it is counted any
  more.
* `Custody.Certain.concluded` — a task that nothing will happen to stands as the reference says.
-/

import TableMigration.Proofs.Outset
import TableMigration.Proofs.Reference

namespace TableMigration

/-! ### Fresh tasks -/

theorem Task.Fresh.summed {task : Task} (fresh : task.Fresh) : task.Summed where
  failed := fresh.judged.failed
  succeeded := fresh.judged.succeeded
  new := ⟨fun _ _ _ found => fresh.actionProgress found, fun _ => fresh.progress⟩

/-! ### Counts in the acts -/

namespace Act

variable {number : Nat} {action : Action} {acts : List Act} {execution : Execution}

theorem lastCounts_about (number : Nat) (action : Action) (acts : List Act) :
    lastCounts number action acts = lastCounts number action (about number action acts) := by
  have same : acts.filterMap (countsOf number action) =
      (about number action acts).filterMap (countsOf number action) := by
    unfold about
    rw [List.filterMap_filter]
    congr 1
    funext act
    cases act with
    | executed other act execution =>
      by_cases mine : other = number ∧ act = action <;> simp [countsOf, concerns, mine]
    | _ => simp [countsOf]
  unfold lastCounts
  rw [same]

theorem lastCounts_of_about_executed (told : about number action acts =
    [.dispatched number action, .executed number action execution]) :
    lastCounts number action acts = execution.counts := by
  rw [lastCounts_about, told]
  have alone := lastCounts_executed number action execution [.dispatched number action]
  exact alone.trans (Option.or_none)

end Act

/-! ### Counts are kept while an action runs -/

namespace Custody

variable {start custody next : Custody} {answers : Nat → Task → Action → Execution → Prop}
  {acts new : List Act} {number : Nat} {action : Action}

/-- The counts of an action change only while it runs. -/
theorem Step.ownCounts {task after : Task} (step : custody.Step answers new next)
    (sound : custody.Sound) (found : custody.tasks number = some task)
    (found' : next.tasks number = some after)
    (still : task.actionProgress action ≠ some .running) :
    after.ownCounts action = task.ownCounts action := by
  obtain ⟨after', later, on⟩ := step.movesOn sound found
  cases found'.symm.trans later
  unfold Task.ownCounts
  rw [on.kind.table]
  have unmoved : next.tasks = custody.tasks →
      after.rowCounts action task.table.fullName = task.rowCounts action task.table.fullName :=
    fun same => rowCounts_same task after found (same ▸ found') _
  cases step with
  | quiet | findEnded | look | miss | collect | lose | pass => exact unmoved rfl
  | dispatch held known =>
    exact rowCounts_setTask known (fun _ => Task.rowCounts_update _ _ _ _) task after found found' _
  | @keepCounts other act execution old _ held known =>
    refine rowCounts_setTask known (fun equal table => ?_) task after found found' _
    subst equal
    rw [found] at known
    cases known
    refine Task.rowCounts_withCounts_of_ne execution (.inl ?_)
    rintro rfl
    exact still (sound.held held found).1
  | keepValidation held known =>
    exact rowCounts_setTask known (fun _ => Task.rowCounts_withValidation _ _ _) task after found
      found' _
  | settle held known =>
    exact rowCounts_setTask known (fun _ => Task.rowCounts_update _ _ _ _) task after found found' _

/-- The brief of an action stays as it is once everything below it has succeeded. -/
theorem Step.brief {task after : Task} (step : custody.Step answers new next)
    (sound : custody.Sound) (found : custody.tasks number = some task)
    (found' : next.tasks number = some after) (cleared : task.Cleared action) :
    after.brief action = task.brief action := by
  obtain ⟨after', later, on⟩ := step.movesOn sound found
  cases found'.symm.trans later
  have actions : after.actions = task.actions := by
    unfold Task.actions
    congr 1
    funext other
    exact on.kind.has other
  have counts : ∀ lower, lower.priority < action.priority →
      after.ownCounts lower = task.ownCounts lower := by
    intro lower under
    refine step.ownCounts sound found found' fun running => ?_
    cases cleared lower under .running running
  unfold Task.brief
  rw [Task.briefOf_congr counts]
  unfold Task.briefOf
  rw [on.kind.name, on.kind.table, on.kind.config, on.kind.store, on.kind.failureStatus, actions]

/-! ### What is certain -/

/-- What is known about fresh tasks that are run by engines whose answers are allowed by the
briefs. -/
structure Certain (allows : Brief → Execution → Prop) (start : Custody) (acts : List Act)
    (custody : Custody) : Prop where
  since : Since start acts custody
  fresh : ∀ number task, start.tasks number = some task → task.Fresh
  summed : ∀ number task, custody.tasks number = some task → task.Summed
  answered : ∀ number action execution, .executed number action execution ∈ acts →
    ∀ task, custody.tasks number = some task → allows (task.brief action) execution

section Certain

variable {allows : Brief → Execution → Prop} {task : Task} (certain : Certain allows start acts custody)

include certain

theorem Certain.coherent : Coherent start acts custody :=
  certain.since.coherent

theorem Certain.kind (number : Nat) (task : Task) (found : custody.tasks number = some task) :
    ∃ initial, start.tasks number = some initial ∧ task.SameKind initial := by
  obtain ⟨initial, began, on⟩ := certain.since.moved number task found
  exact ⟨initial, began, on.kind⟩

/-- All actions of fresh tasks are open. -/
theorem Certain.open_of_has (found : custody.tasks number = some task)
    (present : task.has action = true) : start.Open number action := by
  obtain ⟨initial, began, kind⟩ := certain.kind number task found
  have fresh := certain.fresh number initial began
  rw [kind.has, Task.has_eq] at present
  obtain ⟨progress, now⟩ := Option.isSome_iff_exists.mp present
  refine ⟨initial, began, ?_, ?_⟩
  · rw [fresh.progress]
    rfl
  · exact fresh.actionProgress now ▸ now

theorem Certain.explained (found : custody.tasks number = some task) {progress : Progress}
    (now : task.actionProgress action = some progress) :
    custody.Explains acts number action progress := by
  refine certain.since.accounted number action task progress ?_ found now
  exact certain.open_of_has found (by rw [Task.has_eq, now]; rfl)

end Certain

/-- Which answers the brief for an action allows. -/
def AnswersBy (allows : Brief → Execution → Prop) (_ : Nat) (task : Task) (action : Action)
    (execution : Execution) : Prop :=
  allows (task.brief action) execution

variable {allows : Brief → Execution → Prop} {answer : Brief → Execution}

/-- An execution is allowed by the brief, and stays so. -/
theorem Step.answered (step : custody.Step (AnswersBy allows) new next)
    (coherent : Coherent start acts custody)
    (answered : ∀ number action execution, .executed number action execution ∈ acts →
      ∀ task, custody.tasks number = some task → allows (task.brief action) execution) :
    ∀ number action execution, .executed number action execution ∈ acts ++ new →
      ∀ task, next.tasks number = some task → allows (task.brief action) execution := by
  intro number action execution executed after found'
  have sound := coherent.sound
  rcases List.mem_append.mp executed with old | fresh
  · obtain ⟨task, found, on⟩ := step.origin sound found'
    have cleared := coherent.tells.cleared_of_executed found old
    rw [step.brief sound found found' cleared]
    exact answered number action execution old task found
  · obtain ⟨task, _, _, found, answer, rfl⟩ := step.of_executed fresh
    cases found.symm.trans found'
    exact answer

/-- **What is certain stays so.** -/
theorem Certain.step (certain : Certain allows start acts custody)
    (step : custody.Step (AnswersBy allows) new next)
    (finishing : ∀ brief execution, allows brief execution →
      execution.progress.isTerminal = true) :
    Certain allows start (acts ++ new) next where
  since := certain.since.step step fun _ task action execution answers =>
    finishing (task.brief action) execution answers
  fresh := certain.fresh
  summed := step.summed certain.coherent.sound certain.summed
  answered := step.answered certain.coherent certain.answered

/-- Fresh tasks that rest are certain. -/
theorem Resting.certain (resting : start.Resting)
    (fresh : ∀ number task, start.tasks number = some task → task.Fresh) :
    Certain allows start [] start where
  since := resting.since fun number task found _ => (fresh number task found).judged
  fresh := fresh
  summed number task found := (fresh number task found).summed
  answered _ _ _ executed := by cases executed

/-- Whether a pool has accepted an action, or was never asked. -/
def accepts (acts : List Act) (number : Nat) (action : Action) : Bool :=
  decide (.refused number action ∉ acts)

variable {task : Task}

/-- Every action that is not on its way stands somewhere. -/
theorem Certain.stands (certain : Certain allows start acts custody)
    (away : custody.items = 0) (found : custody.tasks number = some task)
    (present : action ∈ task.actions) : Stands acts number task action :=
  certain.since.stands away found (certain.open_of_has found (Task.mem_actions.mp present))

/-- What an action was executed with is allowed by its brief. -/
theorem Certain.allowed (certain : Certain allows start acts custody)
    (found : custody.tasks number = some task) {execution : Execution}
    (told : Act.about number action acts =
      [.dispatched number action, .executed number action execution]) :
    .executed number action execution ∈ acts ∧ allows (task.brief action) execution := by
  have member : .executed number action execution ∈ Act.about number action acts :=
    told ▸ List.mem_cons_of_mem _ List.mem_cons_self
  have executed := (Act.mem_about.mp member).1
  exact ⟨executed, certain.answered number action execution executed task found⟩

/-- The counts of an action that is not on its way are the ones it returned. -/
theorem Certain.ownCounts (certain : Certain allows start acts custody)
    (away : custody.items = 0) (found : custody.tasks number = some task) (action : Action) :
    task.ownCounts action =
      if action.engine ≠ .validation then Act.lastCounts number action acts else none := by
  by_cases checking : action.engine = .validation
  · rw [if_neg (not_not.mpr checking)]
    exact Task.rowCounts_of_validation (certain.coherent.kept number task found) checking _
  rw [if_pos checking]
  obtain ⟨initial, began, _⟩ := certain.kind number task found
  have owes : custody.Owes number action none := by
    refine .inr ⟨fun execution member => ?_, rfl⟩
    rw [away] at member
    exact absurd member (Multiset.notMem_zero _)
  have counts := certain.coherent.counted number action checking initial task none began found owes
  rwa [(certain.fresh number initial began).rowCounts, Option.none_or, Option.or_none] at counts

/-- A task that nothing will happen to has handed out whatever it could. -/
theorem Certain.not_new (certain : Certain allows start acts custody)
    (away : custody.items = 0) (left : custody.Left number)
    (found : custody.tasks number = some task) (cleared : task.Cleared action) :
    task.actionProgress action ≠ some .new := by
  intro new
  have free := certain.open_of_has found (by rw [Task.has_eq, new]; rfl)
  exact certain.since.not_new away left found free cleared new

/-- **A task that nothing will happen to stands where the reference leaves it.** -/
theorem Certain.concluded
    (certain : Certain (fun brief execution => execution = answer brief) start acts custody)
    (away : custody.items = 0) (left : custody.Left number)
    (found : custody.tasks number = some task) :
    task.Concluded answer (accepts acts number) where
  handled action present cleared := by
    rw [certain.ownCounts away found action]
    cases certain.stands away found present with
    | new progress => exact absurd progress (certain.not_new away left found cleared)
    | refused progress _ told =>
      have rejected : accepts acts number action = false := by
        have member : .refused number action ∈ Act.about number action acts :=
          told ▸ List.mem_cons_of_mem _ List.mem_cons_self
        exact decide_eq_false (not_not.mpr (Act.mem_about.mp member).1)
      have uncounted : Act.lastCounts number action acts = .none := by
        rw [Act.lastCounts_about, told]
        rfl
      rw [progress, rejected, uncounted]
      simp
    | executed execution progress final _ told =>
      have answered := (certain.allowed found told).2
      have accepted : accepts acts number action = true := by
        refine decide_eq_true fun refused => ?_
        have member := Act.mem_about.mpr ⟨refused, (Act.concerns_self number action).2.1⟩
        rw [told] at member
        simp at member
      rw [progress, accepted, Act.lastCounts_of_about_executed told, ← answered]
      simp only [true_and, and_true]
      cases result : execution.progress <;> first | rfl | (rw [result] at final; cases final)
  untouched action present blocked := by
    rw [certain.ownCounts away found action]
    cases certain.stands away found present with
    | new progress told =>
      refine ⟨progress, ?_⟩
      rw [Act.lastCounts_about, told]
      exact ite_self _
    | refused _ cleared | executed _ _ _ cleared => exact absurd cleared blocked

end Custody

end TableMigration
