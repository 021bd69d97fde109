/-
**The fate of a task whose outcomes are fixed.**

* `Custody.Fated` — what is known of tasks that are run by engines with one outcome for each action,
  and whose final verification compares counts. Every step keeps to it (`Custody.Fated.step`).
* `Custody.Fated.about_eq` — two such runs that begin alike, and whose pools refuse the same actions,
  tell the same of every action of a task. Nothing is said of the order of their steps.
* `Custody.Fated.ends_like` — so they leave the task with the same fate (`Task.EndsLike`).
-/

import TableMigration.Proofs.Reconciliation

namespace TableMigration

/-! ### Results in the acts -/

/-- What the acts about an action come to. -/
def Act.result (told : List Act) : Progress :=
  match told.getLast? with
  | some (.executed _ _ execution) => execution.progress
  | some (.refused ..) => .failed
  | _ => .new

/-- A result without a division changes no division. -/
theorem Task.withValidation_of_none (task : Task) {execution : Execution}
    (undivided : execution.validation = none) : task.withValidation execution = task := by
  unfold withValidation
  rw [undivided]
  rfl

theorem Task.validatePartitions_congr {first second : Task} (table : first.table = second.table)
    (agrees : ∀ partition, first.partitionAgrees partition = second.partitionAgrees partition) :
    first.validatePartitions = second.validatePartitions := by
  unfold validatePartitions
  rw [table, funext agrees]

/-- Whether two tasks have come to the same end, as far as a store can tell. -/
structure Task.EndsLike (first second : Task) : Prop where
  kind : first.SameKind second
  ended : ∀ progress : Progress, progress.isTerminal = true →
    (first.progress = progress ↔ second.progress = progress)
  agrees : ∀ partition, first.partitionAgrees partition = second.partitionAgrees partition
  checkpoint : first.checkpoint = second.checkpoint

namespace Custody

variable {start custody next : Custody} {answers answers' : Nat → Task → Action → Execution → Prop}
  {acts new : List Act} {number : Nat} {action : Action} {task : Task}
  {outcome : Nat → Action → Execution}

theorem Stands.result (stands : Stands acts number task action) :
    task.actionProgress action = some (Act.result (Act.about number action acts)) := by
  cases stands with
  | new progress told | refused progress _ told | executed _ progress _ _ told =>
    rw [told, progress]
    rfl

/-- Answers may be said to be less. -/
theorem Step.imp (step : custody.Step answers new next)
    (weaker : ∀ number task action execution,
      answers number task action execution → answers' number task action execution) :
    custody.Step answers' new next := by
  cases step with
  | quiet => exact .quiet
  | findEnded numbers ended idle unlooked => exact .findEnded numbers ended idle unlooked
  | look going idle unlooked => exact .look going idle unlooked
  | collect head found idle => exact .collect head found idle
  | miss head absent => exact .miss head absent
  | lose held absent => exact .lose held absent
  | dispatch held found => exact .dispatch held found
  | pass held found passes =>
    refine .pass held found ?_
    cases passes with
    | accept => exact .accept
    | turnAway => exact .turnAway
    | execute answer => exact .execute (weaker _ _ _ _ answer)
  | keepCounts held found => exact .keepCounts held found
  | keepValidation held found => exact .keepValidation held found
  | settle held found reported => exact .settle held found reported

/-! ### Fixed outcomes -/

/-- The answers of engines with one outcome for each action, beside a final verification that compares
counts. -/
def Answered (outcome : Nat → Action → Execution) (number : Nat) (task : Task) (action : Action)
    (execution : Execution) : Prop :=
  Brief.Verified (task.brief action) execution ∧
    (action.engine ≠ .validation → execution = outcome number action)

/-- What is known of tasks whose outcomes are fixed. -/
structure Fated (outcome : Nat → Action → Execution) (start : Custody) (acts : List Act)
    (custody : Custody) : Prop where
  since : Since start acts custody
  verified : ∀ number action execution, .executed number action execution ∈ acts →
    ∀ task, custody.tasks number = some task → Brief.Verified (task.brief action) execution
  fixed : ∀ number action execution, .executed number action execution ∈ acts →
    action.engine ≠ .validation → execution = outcome number action
  divided : custody.Divided acts
  undivided : ∀ number task, custody.tasks number = some task → ∀ initial,
    start.tasks number = some initial →
    (∀ execution, .executed number .finalVerification execution ∉ acts) →
    task.validation = initial.validation

/-- A task whose final verification was not executed keeps the division it has, since no other result
brings one. -/
theorem Fated.step_undivided (fated : Fated outcome start acts custody)
    (plain : ∀ number action, action.engine ≠ .validation →
      (outcome number action).validation = none)
    (step : custody.Step answers new next) {after initial : Task}
    (found : next.tasks number = some after) (began : start.tasks number = some initial)
    (never : ∀ execution, .executed number .finalVerification execution ∉ acts) :
    after.validation = initial.validation := by
  have sound := fated.since.coherent.sound
  obtain ⟨task, found', _⟩ := step.origin sound found
  rw [← fated.undivided number task found' initial began never]
  have unmoved : next.tasks = custody.tasks → after.validation = task.validation := by
    intro same
    rw [same, found'] at found
    cases found
    rfl
  cases step with
  | quiet | findEnded | look | miss | collect | lose | pass => exact unmoved rfl
  | dispatch held known | settle held known =>
    exact validation_setTask known (Task.validation_update ..) found' found
  | keepCounts held known =>
    exact validation_setTask known (Task.validation_withCounts ..) found' found
  | @keepValidation other action execution old others held known =>
    by_cases equal : number = other
    · subst equal
      obtain ⟨_, story, fits, _⟩ := fated.since.coherent.tells number action
      have told := story.of_execution (fits _ (held ▸ Multiset.mem_cons_self _ _)) rfl
      have member : .executed number action execution ∈ Act.about number action acts :=
        told ▸ List.mem_cons_of_mem _ List.mem_cons_self
      have executed := (Act.mem_about.mp member).1
      have counting : action.engine ≠ .validation := fun checking =>
        never execution (Action.engine_eq_validation checking ▸ executed)
      have undivided : execution.validation = none :=
        fated.fixed number action execution executed counting ▸ plain number action counting
      exact validation_setTask known (congrArg Task.validation (old.withValidation_of_none undivided))
        found' found
    · have same : custody.tasks number = some after := (if_neg equal).symm.trans found
      cases found'.symm.trans same
      rfl

/-- **What is known of tasks whose outcomes are fixed is kept by every step.** -/
theorem Fated.step (fated : Fated outcome start acts custody)
    (plain : ∀ number action, action.engine ≠ .validation →
      (outcome number action).validation = none)
    (step : custody.Step (Answered outcome) new next) :
    Fated outcome start (acts ++ new) next where
  since := fated.since.step step fun _ _ _ _ answer => answer.1.1
  verified := by
    have step' : custody.Step (AnswersBy Brief.Verified) new next :=
      step.imp fun _ _ _ _ answer => answer.1
    exact step'.answered fated.since.coherent fated.verified
  fixed number action execution member counting := by
    rcases List.mem_append.mp member with old | fresh
    · exact fated.fixed number action execution old counting
    · obtain ⟨_, _, _, _, answer, _⟩ := step.of_executed fresh
      exact answer.2 counting
  divided := step.divided fated.since.coherent fated.divided
  undivided number after found initial began never :=
    fated.step_undivided plain step found began fun execution member =>
      never execution (List.mem_append_left _ member)

/-- Honest tasks that rest have their fate before them. -/
theorem Resting.fated (resting : start.Resting)
    (honest : ∀ number task, start.tasks number = some task → task.Honest) :
    Fated outcome start [] start where
  since := resting.since honest
  verified _ _ _ executed := by cases executed
  fixed _ _ _ executed := by cases executed
  divided _ _ _ _ executed := by cases executed
  undivided number task found initial began _ := by
    rw [Option.some.inj (found.symm.trans began)]

/-! ### Where two runs leave a task -/

/-- The counts of an action that is not on its way are the ones it returned, or the first ones. -/
theorem Since.ownCounts (since : Since start acts custody) (away : custody.items = 0)
    (found : custody.tasks number = some task) {initial : Task}
    (began : start.tasks number = some initial) (counting : action.engine ≠ .validation) :
    task.ownCounts action = (Act.lastCounts number action acts).or (initial.ownCounts action) := by
  have owes : custody.Owes number action none := by
    refine .inr ⟨fun execution member => ?_, rfl⟩
    rw [away] at member
    exact absurd member (Multiset.notMem_zero _)
  have counts := since.coherent.counted number action counting initial task none began found owes
  rwa [Option.none_or] at counts

/-- An action that was executed stands where its result left it. -/
theorem Since.progress_of_executed (since : Since start acts custody) (away : custody.items = 0)
    (found : custody.tasks number = some task) {execution : Execution}
    (executed : .executed number action execution ∈ acts) :
    task.actionProgress action = some execution.progress := by
  obtain ⟨_, story, _⟩ := since.coherent.tells number action
  have free := since.told _ executed number action ((Act.concerns_self number action).2.2 execution)
  rw [(since.stands away found free).result, story.about_of_executed executed]
  rfl

section Executed

variable {execution : Execution} (fated : Fated outcome start acts custody)
  (away : custody.items = 0) (found : custody.tasks number = some task)
  (partitioned : task.table.isPartitioned = true)
  (executed : .executed number .finalVerification execution ∈ acts)

include fated away found partitioned executed

/-- A final verification leaves the division that it found. -/
theorem Fated.validation_of_executed : task.validation = some task.validatePartitions := by
  have result : execution.validation = some task.validatePartitions := by
    rw [(fated.verified number _ execution executed task found).verdict partitioned]
    rfl
  refine (fated.divided number execution _ task executed result found).resolve_left ?_
  rintro ⟨_, _, member⟩
  rw [away] at member
  exact Multiset.notMem_zero _ member

/-- After a final verification that found partitions to differ, the end of the task settles those that
agree. -/
theorem Fated.checkpoint_of_differing (differ : task.validatePartitions.failed ≠ []) :
    task.checkpoint = some (task.failureStatus, task.validatePartitions.succeeded) := by
  have unverified : task.actionProgress .finalVerification = some .failed := by
    rw [fated.since.progress_of_executed away found executed,
      (fated.verified number _ execution executed task found).verdict partitioned,
      Task.progress_verdict, if_neg]
    exact fun agreeing => differ (List.isEmpty_iff.mp agreeing)
  have failed : task.progress = .failed := by
    have free := fated.since.told _ executed number .finalVerification
      ((Act.concerns_self number _).2.2 execution)
    exact (fated.since.judged_of_going (not_ended_of_open free) found).failed.mpr ⟨_, unverified⟩
  unfold Task.checkpoint
  rw [partitioned, failed, fated.validation_of_executed away found partitioned executed]
  simp only [unverified, if_true]
  rfl

end Executed

section TwoRuns

variable {acts' : List Act} {custody' : Custody} {task' : Task}
  (fated : Fated outcome start acts custody) (fated' : Fated outcome start acts' custody')
  (away : custody.items = 0) (away' : custody'.items = 0)
  (found : custody.tasks number = some task) (found' : custody'.tasks number = some task')

include fated fated' away away' found found'

/-- If the same is told of an action, it stands at the same place. -/
theorem Fated.progress_eq
    (told : Act.about number action acts = Act.about number action acts') :
    task.actionProgress action = task'.actionProgress action := by
  by_cases free : start.Open number action
  · rw [(fated.since.stands away found free).result, (fated'.since.stands away' found' free).result,
      told]
  · obtain ⟨initial, began, _⟩ := fated.since.moved number task found
    rw [fated.since.kept number action initial task free began found,
      fated'.since.kept number action initial task' free began found']

/-- If the same is told of an action, it has the same counts. -/
theorem Fated.counts_eq
    (told : Act.about number action acts = Act.about number action acts') :
    task.ownCounts action = task'.ownCounts action := by
  obtain ⟨initial, began, _⟩ := fated.since.moved number task found
  by_cases checking : action.engine = .validation
  · have uncounted := Task.rowCounts_of_validation (fated.since.coherent.kept number task found) checking
    have uncounted' :=
      Task.rowCounts_of_validation (fated'.since.coherent.kept number task' found') checking
    exact (uncounted _).trans (uncounted' _).symm
  · rw [fated.since.ownCounts away found began checking,
      fated'.since.ownCounts away' found' began checking, Act.lastCounts_about, told,
      ← Act.lastCounts_about]

omit away away' in
/-- Two tasks that come from one are of one kind. -/
theorem Fated.sameKind : task.SameKind task' := by
  obtain ⟨initial, began, on⟩ := fated.since.moved number task found
  obtain ⟨initial', began', on'⟩ := fated'.since.moved number task' found'
  cases began.symm.trans began'
  exact on.kind.trans ⟨on'.kind.name.symm, on'.kind.table.symm, on'.kind.config.symm,
    on'.kind.store.symm, on'.kind.failureStatus.symm, fun action => (on'.kind.has action).symm⟩

/-- What two runs executed an action with is the same, if what is below it was told alike. -/
theorem Fated.execution_eq
    (below : ∀ lower, lower.priority < action.priority →
      Act.about number lower acts = Act.about number lower acts') {execution execution' : Execution}
    (executed : .executed number action execution ∈ acts)
    (executed' : .executed number action execution' ∈ acts') : execution = execution' := by
  by_cases checking : action.engine = .validation
  · obtain rfl := Action.engine_eq_validation checking
    rw [(fated.verified number _ execution executed task found).2 rfl,
      (fated'.verified number _ execution' executed' task' found').2 rfl]
    have kind := fated.sameKind fated' found found'
    have brief : task.brief .finalVerification = task'.brief .finalVerification := by
      unfold Task.brief
      rw [kind.briefOf]
      exact Task.briefOf_congr fun lower under =>
        fated.counts_eq fated' away away' found found' (below lower under)
    rw [brief]
  · rw [fated.fixed number action execution executed checking,
      fated'.fixed number action execution' executed' checking]

variable (left : custody.Left number) (left' : custody'.Left number)
  (refusals : ∀ action, .refused number action ∈ acts ↔ .refused number action ∈ acts')

include left left' refusals

/-- **Two runs with fixed outcomes tell the same of every action**, lower priorities first. -/
theorem Fated.about_eq (action : Action) :
    Act.about number action acts = Act.about number action acts' := by
  induction priority : action.priority using Nat.strong_induction_on generalizing action with
  | _ rank hyp =>
    subst priority
    have below : ∀ lower, lower.priority < action.priority →
        Act.about number lower acts = Act.about number lower acts' :=
      fun lower under => hyp lower.priority under lower rfl
    by_cases free : start.Open number action
    swap
    · rw [fated.since.about_eq_nil free, fated'.since.about_eq_nil free]
    have cleared : task.Cleared action ↔ task'.Cleared action := by
      refine forall₂_congr fun lower under => ?_
      rw [fated.progress_eq fated' away away' found found' (below lower under)]
    have refused : ∀ {told acts : List Act}, Act.about number action acts = told →
        .refused number action ∈ told → .refused number action ∈ acts :=
      fun same member => (Act.mem_about.mp (same ▸ member)).1
    have executed : ∀ {told acts : List Act} {execution},
        Act.about number action acts = told → .executed number action execution ∈ told →
        .executed number action execution ∈ acts :=
      fun same member => (Act.mem_about.mp (same ▸ member)).1
    have apart : ∀ {acts : List Act} {execution}, .refused number action ∈ acts →
        Act.about number action acts ≠
          [.dispatched number action, .executed number action execution] := by
      intro acts execution member told
      have among := Act.mem_about.mpr ⟨member, (Act.concerns_self number action).2.1⟩
      rw [told] at among
      simp at among
    cases fated.since.stands away found free with
    | new progress told =>
      have blocked : ¬ task.Cleared action := fun clear =>
        fated.since.not_new away left found free clear progress
      cases fated'.since.stands away' found' free with
      | new _ told' => rw [told, told']
      | refused _ clear | executed _ _ _ clear => exact absurd (cleared.mpr clear) blocked
    | refused _ clear told =>
      have rejected := refused told (List.mem_cons_of_mem _ List.mem_cons_self)
      cases fated'.since.stands away' found' free with
      | new progress =>
        exact absurd progress (fated'.since.not_new away' left' found' free (cleared.mp clear))
      | refused _ _ told' => rw [told, told']
      | executed _ _ _ _ told' => exact absurd told' (apart ((refusals action).mp rejected))
    | executed execution _ _ clear told =>
      have done := executed told (List.mem_cons_of_mem _ List.mem_cons_self)
      cases fated'.since.stands away' found' free with
      | new progress =>
        exact absurd progress (fated'.since.not_new away' left' found' free (cleared.mp clear))
      | refused _ _ told' =>
        have rejected := refused told' (List.mem_cons_of_mem _ List.mem_cons_self)
        exact absurd told (apart ((refusals action).mpr rejected))
      | executed execution' _ _ _ told' =>
        have done' := executed told' (List.mem_cons_of_mem _ List.mem_cons_self)
        rw [told, told', fated.execution_eq fated' away away' found found' below done done']

/-- The same has succeeded and the same has failed. -/
theorem Fated.ended_iff {progress : Progress} (final : progress.isTerminal = true) :
    task.progress = progress ↔ task'.progress = progress := by
  have actions : ∀ action, task.actionProgress action = task'.actionProgress action :=
    fun action => fated.progress_eq fated' away away' found found'
      (fated.about_eq fated' away away' found found' left left' refusals action)
  by_cases gone : start.Ended number
  · rw [fated.since.spared number gone] at found
    rw [fated'.since.spared number gone, found] at found'
    rw [Option.some.inj found']
  have judged := fated.since.judged_of_going gone found
  have judged' := fated'.since.judged_of_going gone found'
  cases progress with
  | new | running => cases final
  | succeeded => simp only [judged.succeeded, judged'.succeeded, Task.has_eq, actions]
  | failed => simp only [judged.failed, judged'.failed, actions]

/-- The counts of the same partitions agree. -/
theorem Fated.agrees_eq (partition : Partition) :
    task.partitionAgrees partition = task'.partitionAgrees partition := by
  have told := fated.about_eq fated' away away' found found' left left' refusals
  have counts : ∀ action, task.tableCounts action = task'.tableCounts action := fun action =>
    congrArg (Option.getD · []) (fated.counts_eq fated' away away' found found' (told action))
  unfold Task.partitionAgrees Task.countsAgree
  rw [counts, counts]

/-- A partitioned task is left with the same division. -/
theorem Fated.validation_eq (partitioned : task.table.isPartitioned = true) :
    task.validation = task'.validation := by
  have same := fated.about_eq fated' away away' found found' left left' refusals
    .finalVerification
  have executed_iff : ∀ execution, .executed number .finalVerification execution ∈ acts ↔
      .executed number .finalVerification execution ∈ acts' := by
    have told : ∀ {acts : List Act} execution, .executed number .finalVerification execution ∈ acts ↔
        .executed number .finalVerification execution ∈ Act.about number .finalVerification acts :=
      fun execution => ⟨fun member =>
        Act.mem_about.mpr ⟨member, (Act.concerns_self number _).2.2 execution⟩,
        fun member => (Act.mem_about.mp member).1⟩
    exact fun execution => by rw [told, same, ← told]
  by_cases done : ∃ execution, .executed number .finalVerification execution ∈ acts
  · obtain ⟨execution, executed⟩ := done
    have table := (fated.sameKind fated' found found').table
    have division := Task.validatePartitions_congr table
      (fated.agrees_eq fated' away away' found found' left left' refusals)
    rw [fated.validation_of_executed away found partitioned executed, division,
      fated'.validation_of_executed away' found' (table ▸ partitioned)
        ((executed_iff execution).mp executed)]
  · obtain ⟨initial, began, _⟩ := fated.since.moved number task found
    have never : ∀ execution, .executed number .finalVerification execution ∉ acts :=
      fun execution executed => done ⟨execution, executed⟩
    rw [fated.undivided number task found initial began never,
      fated'.undivided number task' found' initial began fun execution executed =>
        never execution ((executed_iff execution).mpr executed)]

/-- **Two runs with fixed outcomes leave a task with the same fate.** -/
theorem Fated.ends_like : task.EndsLike task' := by
  have kind := fated.sameKind fated' found found'
  have told := fated.about_eq fated' away away' found found' left left' refusals
  have actions : ∀ action, task.actionProgress action = task'.actionProgress action :=
    fun action => fated.progress_eq fated' away away' found found' (told action)
  have ended : ∀ progress : Progress, progress.isTerminal = true →
      (task.progress = progress ↔ task'.progress = progress) :=
    fun _ => fated.ended_iff fated' away away' found found' left left' refusals
  refine ⟨kind, ended, ?_, ?_⟩
  · exact fated.agrees_eq fated' away away' found found' left left' refusals
  · unfold Task.checkpoint
    rw [← kind.table]
    split
    · rfl
    rename_i flat
    have partitioned : task.table.isPartitioned = true := by simpa using flat
    have going : ∀ progress : Progress, progress.isTerminal = false → task.progress = progress →
        task'.progress.isTerminal = false := by
      intro progress goes same
      cases progress' : task'.progress with
      | new | running => rfl
      | succeeded | failed =>
        rw [← same, (ended _ rfl).mpr progress'] at goes
        cases goes
    cases progress : task.progress with
    | succeeded => rw [(ended .succeeded rfl).mp progress]
    | failed =>
      rw [(ended .failed rfl).mp progress, actions, kind.failureStatus,
        fated.validation_eq fated' away away' found found' left left' refusals partitioned]
    | new | running =>
      have goes := going _ rfl progress
      cases progress' : task'.progress with
      | new | running => rfl
      | succeeded | failed =>
        rw [progress'] at goes
        cases goes

end TwoRuns

end Custody

end TableMigration
