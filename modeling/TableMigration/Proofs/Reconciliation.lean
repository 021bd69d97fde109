/-
**No partition is recorded as migrated that was not reconciled.**

* `Custody.Divided` — the division of the partitions that a final verification found is kept by its
  task, or on its way there.
* `Custody.Vouched` — what is known of tasks in the course of a run, whatever was done to them before
  it. Where the actions of a task stand is known if it was fresh (`Custody.BeganFresh`).
* `Custody.Vouched.checkpoint` — what the end of such a task settles as succeeded are partitions that
  agree (`Task.Reconciled`), unless the final verification was refused.
* `Ledger.Backed` says so of all deliveries that are yet to be made (`Ledger.Pending`), and
  `Run.reconciled` of all writes of a run.
-/

import TableMigration.Proofs.Notes
import TableMigration.Proofs.Refinement

namespace TableMigration

/-! ### The kept division -/

namespace Custody

variable {start custody next : Custody} {answers : Nat → Task → Action → Execution → Prop}
  {acts new : List Act}

/-- Whether the division that a final verification found is kept, or on its way. -/
def Divided (custody : Custody) (acts : List Act) : Prop :=
  ∀ number execution validation task, .executed number .finalVerification execution ∈ acts →
    execution.validation = some validation → custody.tasks number = some task →
    (∃ station, (station = .counting execution ∨ station = .dividing execution) ∧
      ⟨number, .finalVerification, station⟩ ∈ custody.items) ∨ task.validation = some validation

/-- A task from which nothing was kept has the same division. -/
theorem validation_setTask {number other : Nat} {old changed task after : Task}
    (known : custody.tasks other = some old) (same : changed.validation = old.validation)
    (before : custody.tasks number = some task)
    (found : (custody.setTask other changed).tasks number = some after) :
    after.validation = task.validation := by
  by_cases equal : number = other
  · subst equal
    have found : some changed = some after := (if_pos rfl).symm.trans found
    rw [known] at before
    cases before
    cases found
    exact same
  · have found : custody.tasks number = some after := (if_neg equal).symm.trans found
    cases before.symm.trans found
    rfl

/-- Whether the division that a final verification found is on its way to its task. -/
def Carries (items : Multiset Item) (number : Nat) (execution : Execution) : Prop :=
  ∃ station, (station = .counting execution ∨ station = .dividing execution) ∧
    ⟨number, .finalVerification, station⟩ ∈ items

theorem Carries.mono {items items' : Multiset Item} {number : Nat} {execution : Execution}
    (carries : Carries items number execution) (kept : ∀ item ∈ items, item ∈ items') :
    Carries items' number execution :=
  carries.imp fun _ ⟨either, member⟩ => ⟨either, kept _ member⟩

/-- What is on its way stays so when something else is taken away. -/
theorem Carries.tail {item : Item} {others : Multiset Item} {number : Nat} {execution : Execution}
    (carries : Carries (item ::ₘ others) number execution)
    (apart : item.task = number →
      item.station ≠ .counting execution ∧ item.station ≠ .dividing execution) :
    Carries others number execution := by
  obtain ⟨station, either, member⟩ := carries
  refine ⟨station, either, (Multiset.mem_cons.mp member).resolve_left ?_⟩
  rintro rfl
  obtain ⟨counting, dividing⟩ := apart rfl
  exact either.elim counting dividing

theorem below_finalVerification {action : Action} (apart : action ≠ .finalVerification) :
    action.priority < Action.finalVerification.priority := by
  cases action <;> first | exact absurd rfl apart | decide

/-- Once the final verification was executed, no other result of the task is on its way. -/
theorem Coherent.result_eq (coherent : Coherent start acts custody) {number : Nat}
    {action : Action} {station : Station} {execution other : Execution} {task : Task}
    {others : Multiset Item} (executed : .executed number .finalVerification execution ∈ acts)
    (held : custody.items = ⟨number, action, station⟩ ::ₘ others)
    (found : custody.tasks number = some task) (result : station.execution? = some other) :
    action = .finalVerification ∧ other = execution := by
  have isLast : action = .finalVerification := by
    by_contra apart
    have cleared := coherent.tells.cleared_of_executed found executed
    have running : task.actionProgress action = some .running := by
      rw [(coherent.sound.held held found).1]
      cases station <;> first | rfl | cases result
    cases cleared action (below_finalVerification apart) .running running
  subst isLast
  refine ⟨rfl, ?_⟩
  obtain ⟨allowed, story, fits, _⟩ := coherent.tells number .finalVerification
  have about := story.of_execution (fits station (held ▸ Multiset.mem_cons_self _ _)) result
  have told := story.about_of_executed executed
  rw [about] at told
  cases told
  rfl

/-- The division reaches the task that it is kept in. -/
theorem Coherent.keeps (coherent : Coherent start acts custody) {number : Nat} {action : Action}
    {execution other : Execution} {validation : Validation} {task : Task} {others : Multiset Item}
    (executed : .executed number .finalVerification execution ∈ acts)
    (result : execution.validation = some validation)
    (held : custody.items = ⟨number, action, .dividing other⟩ ::ₘ others)
    (found : custody.tasks number = some task) :
    (task.withValidation other).validation = some validation := by
  obtain ⟨rfl, rfl⟩ := coherent.result_eq executed held found rfl
  have has : task.has .finalVerification = true := by
    rw [Task.has_eq, (coherent.sound.held held found).1]
    rfl
  exact Task.validation_withValidation (coherent.kept number task found) has result

/-- What is kept, or on its way, is so after a step. -/
theorem Step.stays_divided (step : custody.Step answers new next)
    (coherent : Coherent start acts custody) {number : Nat} {execution : Execution}
    {validation : Validation} {task after : Task}
    (executed : .executed number .finalVerification execution ∈ acts)
    (result : execution.validation = some validation) (known : custody.tasks number = some task)
    (known' : next.tasks number = some after)
    (before : Carries custody.items number execution ∨ task.validation = some validation) :
    Carries next.items number execution ∨ after.validation = some validation := by
  have behind : ∀ {item : Item} {others : Multiset Item}, custody.items = item ::ₘ others →
      (item.task = number →
        item.station ≠ .counting execution ∧ item.station ≠ .dividing execution) →
      after.validation = task.validation →
      Carries others number execution ∨ after.validation = some validation :=
    fun held apart same => before.imp (fun carries => (held ▸ carries).tail apart) same.trans
  have onward : ∀ {item : Item} {others : Multiset Item},
      Carries others number execution ∨ after.validation = some validation →
      Carries (item ::ₘ others) number execution ∨ after.validation = some validation :=
    fun stays => stays.imp (·.mono fun _ => Multiset.mem_cons_of_mem) id
  cases step with
  | quiet | findEnded | look | miss =>
    cases known.symm.trans known'
    exact before
  | collect head found idle =>
    cases known.symm.trans known'
    exact before.imp (·.mono fun _ member => Multiset.mem_add.mpr (.inr member)) id
  | lose held absent =>
    cases known.symm.trans known'
    refine behind held (fun mine => ?_) rfl
    rw [mine, known] at absent
    cases absent
  | dispatch held found =>
    exact onward (behind held (fun _ => ⟨nofun, nofun⟩)
      (validation_setTask found (Task.validation_update ..) known known'))
  | pass held found passes =>
    cases known.symm.trans known'
    refine onward (behind held (fun _ => ?_) rfl)
    cases passes <;> exact ⟨nofun, nofun⟩
  | settle held found reported =>
    refine behind held (fun _ => ⟨?_, ?_⟩)
      (validation_setTask found (Task.validation_update ..) known known') <;>
      rintro rfl <;> cases reported
  | @keepCounts other action execution' task' others held found =>
    have same := validation_setTask found (Task.validation_withCounts ..) known known'
    rcases before with ⟨station, either, member⟩ | kept
    · left
      rcases Multiset.mem_cons.mp (held ▸ member) with equal | behind
      · -- it was its counts that were kept, and the division is next
        cases equal
        rcases either with equal | equal <;> cases equal
        exact ⟨_, .inr rfl, Multiset.mem_cons_self _ _⟩
      · exact ⟨station, either, Multiset.mem_cons_of_mem behind⟩
    · exact .inr (same.trans kept)
  | @keepValidation other action execution' task' others held found =>
    by_cases equal : other = number
    · subst equal
      have same : some (task'.withValidation execution') = some after :=
        (if_pos rfl).symm.trans known'
      cases same
      exact .inr (coherent.keeps executed result held found)
    · have same : custody.tasks number = some after := (if_neg (Ne.symm equal)).symm.trans known'
      cases known.symm.trans same
      exact onward (behind held (fun mine => absurd mine equal) rfl)

/-- **The division is never lost.** -/
theorem Step.divided (step : custody.Step answers new next)
    (coherent : Coherent start acts custody) (divided : custody.Divided acts) :
    next.Divided (acts ++ new) := by
  intro number execution validation after executed result known'
  rcases List.mem_append.mp executed with old | fresh
  · obtain ⟨task, known, _⟩ := step.origin coherent.sound known'
    exact step.stays_divided coherent old result known known'
      (divided number execution validation task old result known)
  · obtain ⟨_, _, _, _, _, rfl⟩ := step.of_executed fresh
    exact .inl ⟨_, .inl rfl, Multiset.mem_cons_self _ _⟩

end Custody

/-! ### What is settled as succeeded -/

/-- Whether both validations have counted a partition, and the same. -/
def Task.CountedAlike (task : Task) (partition : Partition) : Prop :=
  ∃ count,
    ((task.tableCounts .sourceValidate).get? partition.key).bind Count.read? = some count ∧
    ((task.tableCounts .destinationValidate).get? partition.key).bind Count.read? = some count

/-- Whether a partition agrees, and nothing below the final verification is going to change. -/
structure Task.Reconciled (task : Task) (partition : Partition) : Prop where
  cleared : task.Cleared .finalVerification
  agrees : task.partitionAgrees partition = true

/-- Answers with the built-in verification: the final verification compares what was counted. -/
def Brief.Verified (brief : Brief) (execution : Execution) : Prop :=
  execution.progress.isTerminal = true ∧
    (brief.action = .finalVerification → execution = brief.verification)

theorem Task.countedAlike_iff {task : Task} {partition : Partition} :
    task.CountedAlike partition ↔ task.partitionAgrees partition = true := by
  unfold partitionAgrees countsAgree RowCounts.agree CountedAlike
  constructor
  · rintro ⟨count, source, destination⟩
    rw [source, destination]
    exact beq_self_eq_true count
  · intro agrees
    split at agrees
    · rename_i first second source destination
      exact ⟨first, source, (beq_iff_eq.mp agrees) ▸ destination⟩
    · cases agrees

theorem Task.verification_brief {task : Task} (partitioned : task.table.isPartitioned = true) :
    (task.brief .finalVerification).verification = Task.verdict task.validatePartitions := by
  unfold Brief.verification
  have flat : ¬ (!(task.brief .finalVerification).table.isPartitioned) = true := by
    show ¬ (!task.table.isPartitioned) = true
    rw [partitioned]
    decide
  dsimp only
  rw [if_neg flat]
  rfl

/-- The result of a final verification is its verdict on what was counted. -/
theorem Brief.Verified.verdict {task : Task} {execution : Execution}
    (verified : Brief.Verified (task.brief .finalVerification) execution)
    (partitioned : task.table.isPartitioned = true) :
    execution = Task.verdict task.validatePartitions := by
  rw [verified.2 rfl, Task.verification_brief partitioned]

theorem Task.progress_verdict (validation : Validation) :
    (verdict validation).progress = if validation.failed.isEmpty then .succeeded else .failed := by
  unfold verdict
  dsimp only
  split <;> rfl

theorem Task.verdict_succeeded {validation : Validation}
    (succeeded : (Task.verdict validation).progress = .succeeded) : validation.failed = [] := by
  rw [progress_verdict] at succeeded
  split at succeeded
  · rename_i agreeing
    exact List.isEmpty_iff.mp agreeing
  · cases succeeded

namespace Custody

variable {start custody next : Custody} {acts new : List Act} {number : Nat} {task after : Task}
  {partition : Partition}

/-- Whether nothing was done to a task before it was run. -/
def BeganFresh (start : Custody) (number : Nat) : Prop :=
  ∃ initial, start.tasks number = some initial ∧ initial.Fresh

/-- What is known of tasks while a scheduler that verifies itself runs them. Those that were fresh
have it from their actions what became of them. -/
structure Vouched (start : Custody) (acts : List Act) (custody : Custody) : Prop where
  coherent : Coherent start acts custody
  began : ∀ number task, custody.tasks number = some task →
    ∃ initial, start.tasks number = some initial
  judged : ∀ number task, custody.tasks number = some task → start.BeganFresh number → task.Judged
  accounted : custody.Accounted (fun number _ => start.BeganFresh number) acts
  verified : ∀ number action execution, .executed number action execution ∈ acts →
    ∀ task, custody.tasks number = some task → Brief.Verified (task.brief action) execution
  divided : custody.Divided acts

/-- **All of this is kept by every step.** -/
theorem Vouched.step (vouched : Vouched start acts custody)
    (step : custody.Step (AnswersBy Brief.Verified) new next) :
    Vouched start (acts ++ new) next where
  coherent := vouched.coherent.step step fun _ _ _ _ answer => answer.1
  began number after found := by
    obtain ⟨task, found', _⟩ := step.origin vouched.coherent.sound found
    exact vouched.began number task found'
  judged := step.judged vouched.judged
  accounted := step.accounted vouched.coherent.sound vouched.coherent.tells vouched.accounted
  verified := step.answered vouched.coherent vouched.verified
  divided := step.divided vouched.coherent vouched.divided

/-- Before anything was done, there is nothing to explain. -/
theorem Resting.vouched (resting : start.Resting) : Vouched start [] start where
  coherent := resting.coherent
  began _ task found := ⟨task, found⟩
  judged number task found fresh := by
    obtain ⟨initial, began, fresh⟩ := fresh
    cases found.symm.trans began
    exact fresh.judged
  accounted number action task progress fresh found now := by
    obtain ⟨initial, began, fresh⟩ := fresh
    cases found.symm.trans began
    rw [fresh.actionProgress now]
    trivial
  verified _ _ _ executed := by cases executed
  divided _ _ _ _ executed := by cases executed

/-- **What the end of a fresh task settles as succeeded agrees**, unless the final verification was
refused. -/
theorem Vouched.checkpoint (vouched : Vouched start acts custody) (fresh : start.BeganFresh number)
    (found : custody.tasks number = some task) (has : task.has .finalVerification = true)
    {partitions : List Partition} (settles : task.checkpoint = some (.succeeded, partitions)) :
    .refused number .finalVerification ∈ acts ∨
      ∀ partition ∈ partitions, task.Reconciled partition := by
  have explains := fun {progress} =>
    vouched.accounted number .finalVerification task progress fresh found
  have executed : ∀ {execution}, .executed number .finalVerification execution ∈ acts →
      task.Cleared .finalVerification ∧
        (task.table.isPartitioned = true → execution = Task.verdict task.validatePartitions) :=
    fun {execution} executed => ⟨vouched.coherent.tells.cleared_of_executed found executed,
      (vouched.verified number _ execution executed task found).verdict⟩
  obtain ⟨partitioned, ⟨succeeded, _, rfl⟩ | ⟨failed, _, rfl⟩⟩ := Task.checkpoint_cases settles
  · have judged := vouched.judged number task found fresh
    rw [Task.has_eq] at has
    obtain ⟨progress, now⟩ := Option.isSome_iff_exists.mp has
    have done := (judged.succeeded.mp succeeded).2 .finalVerification progress now
    subst done
    obtain ⟨execution, answered, result⟩ := explains now
    obtain ⟨cleared, verdict⟩ := executed answered
    rw [verdict partitioned] at result
    have agreeing := Task.verdict_succeeded result
    refine .inr fun partition member => ⟨cleared, ?_⟩
    by_contra differs
    have failed : partition ∈ task.validatePartitions.failed :=
      List.mem_filter.mpr ⟨member, by simpa using differs⟩
    rw [agreeing] at failed
    cases failed
  · rcases explains failed with refused | ⟨execution, answered, _⟩
    · exact .inl refused
    obtain ⟨cleared, verdict⟩ := executed answered
    have kept : task.validation = some task.validatePartitions := by
      have result : execution.validation = some task.validatePartitions := by
        rw [verdict partitioned]
        rfl
      refine (vouched.divided number execution _ task answered result found).resolve_left ?_
      rintro ⟨station, either, member⟩
      obtain ⟨task', known, running, _⟩ := vouched.coherent.sound.placed _ member
      cases found.symm.trans known
      rw [failed] at running
      rcases either with rfl | rfl <;> cases running
    rw [kept]
    exact .inr fun partition member => ⟨cleared, (List.mem_filter.mp member).2⟩

/-- Once the final verification was cleared, what was counted for a partition stays as it is. -/
theorem Step.stays_counted {answers : Nat → Task → Action → Execution → Prop}
    (step : custody.Step answers new next) (sound : custody.Sound)
    (found : custody.tasks number = some task) (found' : next.tasks number = some after)
    (cleared : task.Cleared .finalVerification) (partition : Partition) :
    after.partitionAgrees partition = task.partitionAgrees partition := by
  have counts : ∀ action : Action, action.priority < Action.finalVerification.priority →
      after.tableCounts action = task.tableCounts action := by
    intro action under
    have same : after.ownCounts action = task.ownCounts action := by
      refine step.ownCounts sound found found' fun running => ?_
      cases cleared action under .running running
    exact congrArg (Option.getD · []) same
  unfold Task.partitionAgrees Task.countsAgree
  rw [counts .sourceValidate (by decide), counts .destinationValidate (by decide)]

/-- What was reconciled stays so. -/
theorem Step.stays_reconciled {answers : Nat → Task → Action → Execution → Prop}
    (step : custody.Step answers new next) (sound : custody.Sound)
    (found : custody.tasks number = some task) (found' : next.tasks number = some after)
    (reconciled : task.Reconciled partition) : after.Reconciled partition := by
  obtain ⟨after', later, on⟩ := step.movesOn sound found
  cases found'.symm.trans later
  have cleared := reconciled.cleared
  exact ⟨on.cleared cleared,
    (step.stays_counted sound found found' cleared partition).trans reconciled.agrees⟩

end Custody

/-! ### Deliveries that were reconciled -/

namespace Ledger

variable {ledger next : Ledger} {answers : Nat → Task → Action → Execution → Prop}
  {start : Custody} {acts new : List Act}

/-- Whether all partitions that are yet to be recorded as succeeded for tasks that were fresh were
reconciled, unless the final verification of the task was refused. -/
def Backed (ledger : Ledger) (start : Custody) (acts : List Act) : Prop :=
  ∀ number database name partitions,
    ledger.Pending number (.write (.status database name partitions .succeeded)) →
    start.BeganFresh number →
    ∀ task, ledger.custody.tasks number = some task → task.has .finalVerification = true →
      .refused number .finalVerification ∈ acts ∨
        ∀ partition ∈ partitions, task.Reconciled partition

/-- **All of them stay so.** -/
theorem Step.backed (step : ledger.Step answers new next) {answers'}
    (goes : ledger.custody.Step answers' new next.custody) (sound : ledger.custody.Sound)
    (vouched : Custody.Vouched start (acts ++ new) next.custody)
    (backed : ledger.Backed start acts) : next.Backed start (acts ++ new) := by
  intro number database name partitions pending fresh after found' has
  rcases step.pending pending with old | ⟨-, task, action, reported, -, found, called⟩
  · obtain ⟨task, found, on⟩ := goes.origin sound found'
    have has' : task.has .finalVerification = true := on.kind.has _ ▸ has
    rcases backed number database name partitions old fresh task found has' with
      refused | reconciled
    · exact .inl (List.mem_append_left _ refused)
    · exact .inr fun partition member =>
        goes.stays_reconciled sound found found' (reconciled partition member)
  · have settles := (Task.checkpoint_of_mem_deliveries called).1
    cases (custody_of_found found).symm.trans found'
    exact vouched.checkpoint fresh found' has settles

end Ledger

/-! ### What a run writes -/

namespace Run

variable {σ : Type} {engines : Engines σ} {origin run next last : Run σ} {acts : List Act}

/-- The built-in verification compares what was counted, whatever the engines do. -/
theorem keeps_verified (engines : Engines σ) : Keeps engines true Brief.Verified where
  answers run number task action verifies := by
    refine ⟨Campaign.finishes_callEngine engines run number task action, fun same => ?_⟩
    obtain rfl : action = .finalVerification := same
    unfold callEngine
    rw [if_pos ⟨rfl, verifies⟩]
    exact task.verify_brief engines.backend run.scheduler.store run.state
  finishing _ _ verified := verified.1

/-- What a move does to the tasks of a scheduler that verifies itself. -/
theorem step_verified {move : Move} (orderly : Duty.Orderly run.agenda)
    (itself : run.scheduler.verifiesItself = true) (moved : run.step engines move = some next) :
    run.ledger.custody.Step (Custody.AnswersBy Brief.Verified) (run.acts engines move)
      next.ledger.custody := by
  have answered : run.ledger.Step (Custody.AnswersBy Brief.Verified) (run.acts engines move)
      next.ledger :=
    step_ledger moved fun number task action =>
      (keeps_verified engines).answers run number task action itself
  exact answered.custody (fun _ _ _ _ => id) orderly

/-- What holds of a run with the built-in verification. -/
structure Guarded (run : Run σ) (origin : Run σ) (acts : List Act) : Prop where
  healthy : run.Healthy
  vouched : Custody.Vouched origin.ledger.custody acts run.ledger.custody
  itself : run.scheduler.verifiesItself = true
  backed : run.ledger.Backed origin.ledger.custody acts

/-- **A move keeps a run guarded.** -/
theorem Guarded.step {move : Move} (guarded : run.Guarded origin acts)
    (moved : run.step engines move = some next) :
    next.Guarded origin (acts ++ run.acts engines move) := by
  obtain ⟨healthy, vouched, itself, backed⟩ := guarded
  have goes := step_verified healthy.orderly itself moved
  have later := vouched.step goes
  exact ⟨healthy.step moved, later, (step_frame moved).verifies.trans itself,
    (Campaign.step_finishes moved).backed goes healthy.sound later backed⟩

/-- A run begins guarded: there is nothing to deliver yet. -/
theorem guarded_begins {scheduler : Scheduler} {tasks : List Task} {listed : List Nat} {state : σ}
    (begins : scheduler.Begins tasks listed state run) (kept : ∀ task ∈ tasks, task.WellKept)
    (itself : scheduler.verifiesItself = true) : run.Guarded run [] where
  healthy := begins.healthy
  vouched := (begins.resting kept).vouched
  itself := begins.verifies.trans itself
  backed _ _ _ _ pending := absurd pending begins.not_pending

/-- The tasks of a guarded run are those that it began with. -/
theorem Guarded.began {scheduler : Scheduler} {tasks : List Task} {listed : List Nat} {state : σ}
    (guarded : run.Guarded origin acts) (begins : scheduler.Begins tasks listed state origin)
    {number : Nat} {task : Task} (found : run.tasks[number]? = some task) :
    ∃ initial, tasks[number]? = some initial ∧
      (initial.Fresh → origin.ledger.custody.BeganFresh number) := by
  obtain ⟨deaf, began⟩ := guarded.vouched.began number _ (custody_of_found found)
  have known := began
  rw [Campaign.custody_begins begins] at known
  obtain ⟨initial, planned, rfl⟩ := Option.map_eq_some_iff.mp known
  exact ⟨initial, planned, fun fresh => ⟨initial.deaf, began, fresh.progress, fresh.records⟩⟩

/-- A write that records partitions as succeeded is a delivery that was pending. -/
theorem pending_of_write {move : Move} {store : StoreRef} {database name : String}
    {partitions : List Partition} {partition : Partition} (among : partition ∈ partitions)
    (moved : run.step engines move = some next)
    (made : (store, .status database name partitions .succeeded) ∈ run.writes move) :
    ∃ number task, run.client? move = some number ∧ run.tasks[number]? = some task ∧
      task.store = some store ∧
      run.ledger.Pending number (.write (.status database name partitions .succeeded)) := by
  have beside : (Write.status database name partitions .succeeded).isOnRow = false :=
    List.isEmpty_eq_false_iff.mpr (List.ne_nil_of_mem among)
  obtain ⟨number, task, client, found, served⟩ := serves_of_beside moved made beside
  cases served with
  | delivery known pending => exact ⟨number, task, client, found, known, pending⟩

/-- **No partition is recorded as succeeded that was not counted alike**, unless the final
verification of its task was refused. Every such write is made on behalf of one task of the run. Only
to this one nothing may have been done before the run, the others may have come any way. -/
theorem reconciled {scheduler : Scheduler} {tasks : List Task} {listed : List Nat} {state : σ}
    {moves : List Move} {move : Move} (resting : scheduler.AtRest)
    (itself : scheduler.verifiesItself = true) (kept : ∀ task ∈ tasks, task.WellKept)
    (launched : scheduler.launch tasks listed state = .started run)
    (reached : run.steps engines moves = some last) (moved : last.step engines move = some next) :
    ∃ new, next.events = last.events ++ new ∧ ∀ store database name partitions,
      .wrote store (.status database name partitions .succeeded) ∈ new →
        ∀ partition ∈ partitions, ∃ number initial task, last.client? move = some number ∧
          tasks[number]? = some initial ∧ last.tasks[number]? = some task ∧
          task.store = some store ∧
          (initial.Fresh → task.has .finalVerification = true → task.CountedAlike partition ∨
            .refused number .finalVerification ∈ run.trace engines moves) := by
  have begins := resting.begins launched
  have guarded : last.Guarded run ([] ++ run.trace engines moves) := by
    have keep : ∀ acts (now : Run σ) move next, now.Guarded run acts →
        now.step engines move = some next → next.Guarded run (acts ++ now.acts engines move) :=
      fun _ _ _ _ guarded moved => guarded.step moved
    exact steps_keep keep (guarded_begins begins kept itself) reached
  obtain ⟨new, events, shown⟩ := (step_wrote moved).shown
  refine ⟨new, events, fun store database name partitions wrote partition among => ?_⟩
  have made : (store, .status database name partitions .succeeded) ∈ last.writes move :=
    shown ▸ Event.mem_writes.mpr wrote
  obtain ⟨number, task, client, found, known, pending⟩ := pending_of_write among moved made
  obtain ⟨initial, began, fresh⟩ := guarded.began begins found
  refine ⟨number, initial, task, client, began, found, known, fun untouched has => ?_⟩
  have found' : last.ledger.custody.tasks number = some task.deaf := custody_of_found found
  rcases guarded.backed number database name partitions pending (fresh untouched) task.deaf found'
    has with refused | reconciled
  · exact .inr refused
  · exact .inl (Task.countedAlike_iff.mpr (reconciled partition among).agrees)

/-! ### A run with two tasks -/

/-- Engines that count the given numbers for the only partition, and succeed. -/
def countingEngines (source destination : String) : Engines Unit where
  backend := (Campaign.easyEngines 0).backend
  call _ _ _ action _ :=
    match action with
    | .sourceValidate => (.returned { Execution.succeed with counts := some [("x", source)] }, ())
    | .destinationValidate =>
      (.returned { Execution.succeed with counts := some [("x", destination)] }, ())
    | _ => (.returned .succeed, ())

/-- A task that only verifies. -/
def verifyingTask : Task :=
  (Task.create "first" ⟨"d", "a", [], []⟩ ⟨none⟩ none .succeeded).addActions [.finalVerification]

/-- A task with one partition that is counted twice and verified. -/
def countedTask : Task :=
  (Task.create "second" ⟨"d", "b", ["p"], [⟨["x"]⟩]⟩ ⟨none⟩ (some 0) .succeeded).addActions
    [.sourceValidate, .destinationValidate, .finalVerification]

theorem fresh_sample : ∀ task ∈ [countedTask, verifyingTask], task.Fresh := by
  have fresh : ∀ name table store actions,
      ((Task.create name table ⟨none⟩ store .succeeded).addActions actions).Fresh :=
    fun _ _ _ actions => (Task.fresh_create _ _ _ _ _).addActions actions
  exact List.forall_mem_cons.mpr ⟨fresh .., List.forall_mem_singleton.mpr (fresh ..)⟩

/-- A task that has failed before the run. -/
def spentTask : Task :=
  (verifyingTask.update .finalVerification .failed).task

theorem wellKept_spent : ∀ task ∈ [countedTask, spentTask], task.WellKept := by
  have kept : ∀ task ∈ [countedTask, verifyingTask], task.WellKept :=
    fun task member => (fresh_sample task member).wellKept
  obtain ⟨counted, verifying⟩ := List.forall_mem_cons.mp kept
  have spent : spentTask.WellKept :=
    (List.forall_mem_singleton.mp verifying).update .finalVerification .failed
  exact List.forall_mem_cons.mpr ⟨counted, List.forall_mem_singleton.mpr spent⟩

/-- The counted task is alone, and is verified as soon as it was counted. -/
def promptMoves : List Move :=
  List.replicate 7 .advance ++ jobMoves .source ++ List.replicate 3 .advance ++
    jobMoves .destination ++ List.replicate 9 .advance ++
    .take .validation :: List.replicate 4 (.work .validation 0)

/-- The same once the spent task was found ended, and its table was finished. -/
def besideMoves : List Move :=
  List.replicate 2 .advance ++ promptMoves

/-- Beside a task that was not fresh, the next move records the partition of a fresh one as succeeded,
and it was counted alike. -/
theorem reconciled_prompt : ¬ spentTask.Fresh ∧ ∃ run last next task,
    smallScheduler.launch [countedTask, spentTask] [1, 0] () = .started run ∧
    run.steps (countingEngines "1" "1") besideMoves = some last ∧
    last.step (countingEngines "1" "1") (.work .validation 0) = some next ∧
    .wrote 0 (.status "d" "b" [⟨["x"]⟩] .succeeded) ∈ next.events.drop last.events.length ∧
    last.tasks[0]? = some task ∧ task.CountedAlike ⟨["x"]⟩ := by
  refine ⟨fun fresh => absurd fresh.progress (by decide), ?_⟩
  have goes : (smallScheduler.launch [countedTask, spentTask] [1, 0] ()).leads
      (countingEngines "1" "1") besideMoves (fun run last =>
        ((last.step (countingEngines "1" "1") (.work .validation 0)).any fun next =>
          .wrote 0 (.status "d" "b" [⟨["x"]⟩] .succeeded) ∈
            next.events.drop last.events.length) = true ∧
        last.client? (.work .validation 0) = some 0 ∧
        .refused 0 .finalVerification ∉ run.trace (countingEngines "1" "1") besideMoves ∧
        (last.tasks[0]?.any fun task => task.has .finalVerification) = true) = true := by
    decide +kernel
  obtain ⟨run, last, launched, reached, shows⟩ := Launch.of_leads goes
  obtain ⟨steps, client, accepted, has⟩ := of_decide_eq_true shows
  obtain ⟨next, moved, wrote⟩ := (Option.any_eq_true _ _).mp steps
  have wrote := of_decide_eq_true wrote
  obtain ⟨new, events, backed⟩ := reconciled (Scheduler.atRest_create none true true true _) rfl
    wellKept_spent launched reached moved
  have drop : next.events.drop last.events.length = new := by rw [events, List.drop_left]
  obtain ⟨number, initial, task, client', began, found, _, alike⟩ :=
    backed 0 "d" "b" [⟨["x"]⟩] (drop ▸ wrote) ⟨["x"]⟩ List.mem_cons_self
  cases client.symm.trans client'
  cases began
  rw [found] at has
  exact ⟨run, last, next, task, launched, reached, moved, wrote, found,
    (alike (fresh_sample countedTask List.mem_cons_self) has).resolve_right accepted⟩

/-- The verifying task takes the only place that the queue of the validation pool has. -/
def crowdedMoves : List Move :=
  List.replicate 14 .advance ++ jobMoves .source ++ List.replicate 3 .advance ++
    jobMoves .destination ++ List.replicate 14 .advance

/-- **The final verification has to be accepted.** With a full queue, a partition is recorded as
succeeded although the counts differ. -/
theorem refused_not_reconciled : (∀ task ∈ [countedTask, verifyingTask], task.Fresh) ∧
    ∃ run last next task, smallScheduler.launch [countedTask, verifyingTask] [1, 0] () = .started run ∧
    run.steps (countingEngines "1" "2") crowdedMoves = some last ∧
    last.step (countingEngines "1" "2") .advance = some next ∧
    .wrote 0 (.status "d" "b" [⟨["x"]⟩] .succeeded) ∈ next.events.drop last.events.length ∧
    last.client? .advance = some 0 ∧ last.tasks[0]? = some task ∧
    task.actions = [.sourceValidate, .destinationValidate, .finalVerification] ∧
    task.failureStatus = .succeeded ∧ ¬ task.CountedAlike ⟨["x"]⟩ := by
  refine ⟨fresh_sample, ?_⟩
  have goes : (smallScheduler.launch [countedTask, verifyingTask] [1, 0] ()).leads
      (countingEngines "1" "2") crowdedMoves (fun _ last =>
        ((last.step (countingEngines "1" "2") .advance).any fun next =>
          .wrote 0 (.status "d" "b" [⟨["x"]⟩] .succeeded) ∈
            next.events.drop last.events.length) = true ∧
        last.client? .advance = some 0 ∧
        (last.tasks[0]?.any fun task =>
          task.actions = [.sourceValidate, .destinationValidate, .finalVerification] ∧
          task.failureStatus = .succeeded ∧ task.partitionAgrees ⟨["x"]⟩ = false) = true) =
      true := by decide +kernel
  obtain ⟨run, last, launched, reached, shows⟩ := Launch.of_leads goes
  obtain ⟨steps, client, has⟩ := of_decide_eq_true shows
  obtain ⟨next, moved, wrote⟩ := (Option.any_eq_true _ _).mp steps
  obtain ⟨task, found, has⟩ := (Option.any_eq_true _ _).mp has
  obtain ⟨actions, status, differs⟩ := of_decide_eq_true has
  refine ⟨run, last, next, task, launched, reached, moved, of_decide_eq_true wrote, client, found,
    actions, status, fun alike => ?_⟩
  rw [Task.countedAlike_iff.mp alike] at differs
  cases differs

end Run

end TableMigration
