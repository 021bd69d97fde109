/-
**How actions are conducted.**

* `Custody.Reaches` is a sequence of steps with all its acts, over one run or several.
* `Custody.Reaches.coherent` — when no action is on its way in the beginning, then all along the
  custody is sound, the acts tell one story of every action, executions of a task never go back to
  a lower priority, and nothing of a task is handed out once it was found ended.
* `Custody.Coherent.admits` — what holds at the moment of an act. In particular an action that is
  executed is running, every action of a lower priority has succeeded, and the counts of these are
  the ones they returned last.
-/

import Mathlib.Tactic.ByContra
import TableMigration.Proofs.Tally

namespace TableMigration

/-! ### Order -/

/-- Whether one act may come before another. -/
def Act.InOrder : Act → Act → Prop
  | .executed number action _, .executed other act _ =>
    number = other → action.priority ≤ act.priority
  | .foundEnded number, .dispatched other _ => number ≠ other
  | _, _ => True

/-- Only actions on source and destination engines stand below another. -/
theorem Action.engine_of_below {lower action : Action}
    (under : lower.priority < action.priority) : lower.engine ≠ .validation := by
  revert under
  cases lower <;> cases action <;> decide

namespace Custody

/-- Some steps, and their acts. -/
inductive Reaches (answers : Nat → Task → Action → Execution → Prop) (start : Custody) :
    List Act → Custody → Prop
  | refl : Reaches answers start [] start
  | step {acts new custody next} (reached : Reaches answers start acts custody)
      (step : custody.Step answers new next) : Reaches answers start (acts ++ new) next

/-- What holds at the moment of an act. -/
def Admits (start : Custody) (acts : List Act) (custody : Custody) : Act → Prop
  | .foundEnded number => custody.Ended number
  | .dispatched number action => ∃ task, custody.tasks number = some task ∧
    task.actionProgress action = some .new ∧ task.Cleared action
  | .refused number action => ∃ task, custody.tasks number = some task ∧
    task.actionProgress action = some .running
  | .executed number action _ => ∃ task, custody.tasks number = some task ∧
    task.actionProgress action = some .running ∧ task.Cleared action ∧
    ∀ initial lower, start.tasks number = some initial → lower.priority < action.priority →
      task.has lower = true → task.rowCounts lower task.table.fullName =
        (Act.lastCounts number lower acts).or (initial.rowCounts lower initial.table.fullName)

/-- What the acts since the start say about a custody. -/
structure Coherent (start : Custody) (acts : List Act) (custody : Custody) : Prop where
  sound : custody.Sound
  tells : custody.Tells acts
  shut : custody.Shut acts
  counted : custody.Counted start.tasks acts
  kept : ∀ number task, custody.tasks number = some task → task.WellKept
  ordered : acts.Pairwise Act.InOrder

/-- Whether nothing is on its way. -/
structure Resting (custody : Custody) : Prop where
  items : custody.items = 0
  looked : custody.looked = []
  kept : ∀ number task, custody.tasks number = some task → task.WellKept

variable {start custody next : Custody} {answers : Nat → Task → Action → Execution → Prop}
  {acts new : List Act}

/-- With nothing on its way everything is where it should be. -/
theorem sound_of_items (away : start.items = 0) : start.Sound where
  distinct := by
    rw [away]
    exact Multiset.nodup_zero
  placed item member := by
    rw [away] at member
    exact absurd member (Multiset.notMem_zero item)
  final item member := by
    rw [away] at member
    exact absurd member (Multiset.notMem_zero item)

/-- In the beginning nothing was done. -/
theorem Resting.coherent (resting : start.Resting) : Coherent start [] start where
  sound := sound_of_items resting.items
  tells number action := by
    refine ⟨_, .untold, fun station member => ?_, fun told => absurd rfl told⟩
    rw [resting.items] at member
    exact absurd member (Multiset.notMem_zero _)
  shut number told := by cases told
  counted number action _ initial task owed began found owes := by
    have same := began.symm.trans found
    cases same
    rcases owes with ⟨_, member, _⟩ | ⟨_, rfl⟩
    · rw [resting.items] at member
      exact absurd member (Multiset.notMem_zero _)
    · rfl
  kept := resting.kept
  ordered := .nil

/-- Nothing is owed for an action that has succeeded. -/
theorem Sound.owes_nothing (sound : custody.Sound) {number : Nat} {action : Action} {task : Task}
    (found : custody.tasks number = some task)
    (succeeded : task.actionProgress action = some .succeeded) :
    custody.Owes number action none := by
  refine .inr ⟨fun execution member => ?_, rfl⟩
  obtain ⟨task', found', progress, _⟩ := sound.placed _ member
  rw [show custody.tasks number = _ from found'] at found
  cases found
  rw [show _ = some Progress.running from progress] at succeeded
  cases succeeded

/-- **What holds at the moment of an act.** -/
theorem Coherent.admits (coherent : Coherent start acts custody)
    (step : custody.Step answers new next) : ∀ act ∈ new, Admits start acts custody act := by
  have sound := coherent.sound
  intro act member
  cases step with
  | quiet => cases member
  | look _ _ _ => cases member
  | miss _ _ => cases member
  | collect _ _ _ => cases member
  | lose _ _ => cases member
  | keepCounts _ _ => cases member
  | keepValidation _ _ => cases member
  | settle _ _ _ => cases member
  | findEnded numbers ended idle unlooked =>
    obtain ⟨number, among, rfl⟩ := List.mem_map.mp member
    exact ended number among
  | dispatch held found =>
    cases List.mem_singleton.mp member
    exact ⟨_, found, sound.held held found⟩
  | @pass number action _ _ _ task _ held found passes =>
    cases passes with
    | accept => cases member
    | turnAway =>
      cases List.mem_singleton.mp member
      exact ⟨task, found, (sound.held held found).1⟩
    | execute answer =>
      cases List.mem_singleton.mp member
      obtain ⟨running, cleared⟩ := sound.held held found
      refine ⟨task, found, running, cleared, fun initial lower began under has => ?_⟩
      rw [Task.has_eq] at has
      obtain ⟨progress, now⟩ := Option.isSome_iff_exists.mp has
      have succeeded := cleared lower under progress now
      subst succeeded
      exact coherent.counted number lower (Action.engine_of_below under) initial task none began
        found (sound.owes_nothing found now)

theorem Tells.begun (tells : custody.Tells acts) {number : Nat} {action : Action} {act : Act}
    (member : act ∈ acts) (concerned : act.concerns number action = true) :
    custody.Begun number action := by
  obtain ⟨_, _, _, begun⟩ := tells number action
  refine begun fun silent => ?_
  have told := Act.mem_about.mpr ⟨member, concerned⟩
  rw [silent] at told
  cases told

/-- An action that some act is about was cleared. -/
theorem Tells.cleared (tells : custody.Tells acts) {number : Nat} {action : Action} {act : Act}
    {task : Task} (found : custody.tasks number = some task) (member : act ∈ acts)
    (concerned : act.concerns number action = true) : task.Cleared action := by
  obtain ⟨task', known, _, cleared⟩ := tells.begun member concerned
  cases found.symm.trans known
  exact cleared

/-- What was executed once everything below had succeeded finds it so ever after. -/
theorem Tells.cleared_of_executed (tells : custody.Tells acts) {number : Nat} {action : Action}
    {execution : Execution} {task : Task} (found : custody.tasks number = some task)
    (executed : .executed number action execution ∈ acts) : task.Cleared action :=
  tells.cleared found executed ((Act.concerns_self number action).2.2 execution)

/-- What is handed out was due. -/
theorem Step.due_of_dispatched (step : custody.Step answers new next) {number : Nat}
    {action : Action} (member : .dispatched number action ∈ new) :
    ⟨number, action, .due⟩ ∈ custody.items := by
  obtain ⟨_, _, _, held, _⟩ := step.of_dispatched member
  exact held ▸ Multiset.mem_cons_self _ _

/-- What is executed was queued, and so it was handed out before. -/
theorem Coherent.dispatched_of_executed (coherent : Coherent start acts custody)
    (step : custody.Step answers new next) {number : Nat} {action : Action}
    {execution : Execution} (member : .executed number action execution ∈ new) :
    .dispatched number action ∈ acts := by
  obtain ⟨_, _, held, _⟩ := step.of_executed member
  have queued : ⟨number, action, .queued⟩ ∈ custody.items := held ▸ Multiset.mem_cons_self _ _
  obtain ⟨allowed, story, fits, _⟩ := coherent.tells number action
  have told := story.of_out (fits _ queued) (.inr rfl)
  have dispatched : .dispatched number action ∈ Act.about number action acts :=
    told ▸ List.mem_singleton.mpr rfl
  exact (Act.mem_about.mp dispatched).1

/-- The acts of one step do not depend on their order. -/
theorem Step.pairwise (step : custody.Step answers new next) : new.Pairwise Act.InOrder := by
  cases step with
  | dispatch => exact List.pairwise_singleton _ _
  | findEnded numbers =>
    refine List.pairwise_map.mpr (List.Pairwise.imp (fun _ => trivial)
      (List.pairwise_of_forall (R := fun _ _ => True) fun _ _ => trivial))
  | pass held found passes =>
    cases passes with
    | accept => exact .nil
    | turnAway => exact List.pairwise_singleton _ _
    | execute => exact List.pairwise_singleton _ _
  | _ => exact .nil

/-- New acts come in order. -/
theorem Coherent.inOrder (coherent : Coherent start acts custody)
    (step : custody.Step answers new next) {earlier later : Act} (old : earlier ∈ acts)
    (fresh : later ∈ new) : earlier.InOrder later := by
  have admits := coherent.admits step later fresh
  cases earlier with
  | refused => cases later <;> trivial
  | dispatched => cases later <;> trivial
  | foundEnded number =>
    cases later with
    | foundEnded => trivial
    | refused => trivial
    | executed => trivial
    | dispatched other action =>
      rintro rfl
      exact (coherent.shut number old).2.2 action (step.due_of_dispatched fresh)
  | executed number action execution =>
    cases later with
    | foundEnded => trivial
    | refused => trivial
    | dispatched => trivial
    | executed other act execution' =>
      rintro rfl
      obtain ⟨task, found, running, _, _⟩ := admits
      have cleared := coherent.tells.cleared_of_executed found old
      by_contra back
      cases cleared act (by omega) .running running

/-- **Coherence is kept.** -/
theorem Coherent.step (coherent : Coherent start acts custody)
    (step : custody.Step answers new next)
    (finishing : ∀ number task action execution,
      answers number task action execution → execution.progress.isTerminal = true) :
    Coherent start (acts ++ new) next where
  sound := step.sound coherent.sound finishing
  tells := step.tells coherent.sound (step.sound coherent.sound finishing) coherent.tells
  shut := step.shut coherent.sound coherent.shut
  counted := step.counted coherent.sound coherent.kept coherent.counted
  kept number after found := by
    obtain ⟨task, found', on⟩ := step.origin coherent.sound found
    exact on.kept (coherent.kept number task found')
  ordered := by
    exact List.pairwise_append.mpr ⟨coherent.ordered, step.pairwise,
      fun earlier old later fresh => coherent.inOrder step old fresh⟩

/-- **Whatever is done from rest is coherent.** -/
theorem Reaches.coherent (reached : Reaches answers start acts custody) (resting : start.Resting)
    (finishing : ∀ number task action execution,
      answers number task action execution → execution.progress.isTerminal = true) :
    Coherent start acts custody := by
  induction reached with
  | refl => exact resting.coherent
  | step _ step hyp => exact hyp.step step finishing

end Custody

end TableMigration
