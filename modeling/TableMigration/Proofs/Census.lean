/-
**Tasks whose validations count by a census.**

* A `Census` says what either side counts under the keys of tables, if it counts anything that can be
  read. `Census.agree` compares the two sides.
* `Brief.Counted` — engines that always succeed and count what the census does, with the built-in
  verification.
* `Custody.Certain.counted_progress` — in the end a task has succeeded iff the two sides agree under
  all its keys, and `Custody.Certain.counted_checkpoint` — it settles the partitions on which they do.
-/

import TableMigration.Proofs.Plans
import TableMigration.Proofs.Settlement

namespace TableMigration

/-! ### Censuses -/

/-- What a validation counts under a key of a table, if anything. -/
abbrev Census := Action → (table key : String) → Option String

/-- Whether two counts can be read, and are the same number. -/
def Count.alike (first second : Option String) : Bool :=
  match first.bind read?, second.bind read? with
  | some first, some second => first == second
  | _, _ => false

theorem RowCounts.agree_eq (source destination : RowCounts) (key : String) :
    source.agree destination key = Count.alike (source.get? key) (destination.get? key) :=
  rfl

namespace Census

/-- Whether both sides count the same number under a key of a table. -/
def agree (census : Census) (table key : String) : Bool :=
  Count.alike (census .sourceValidate table key) (census .destinationValidate table key)

/-- Whether both sides count the same number under every key of a table. -/
def agreeAll (census : Census) (table : Table) : Bool :=
  table.keys.all (census.agree table.fullName)

/-- Whether an action succeeds on a table, and a validation reports what the census has. -/
def Reports (census : Census) (table : Table) (action : Action) (execution : Execution) : Prop :=
  execution.progress = .succeeded ∧
    (action = .sourceValidate ∨ action = .destinationValidate → ∀ key ∈ table.keys,
      (execution.counts.getD []).get? key = census action table.fullName key)

end Census

/-- Whether engines succeed on every action, and count what a census has. -/
def Engines.CountBy {σ : Type} (engines : Engines σ) (census : Census) : Prop :=
  ∀ engine number task action state, action ≠ .finalVerification →
    ∃ execution, (engines.call engine number task action state).1 = .returned execution ∧
      census.Reports task.table action execution

/-- Answers of such engines beside the built-in verification. -/
def Brief.Counted (census : Census) (brief : Brief) (execution : Execution) : Prop :=
  if brief.action = .finalVerification then execution = brief.verification
  else census.Reports brief.table brief.action execution

namespace Run

variable {σ : Type} {engines : Engines σ} {census : Census}

theorem keeps_counted (counts : engines.CountBy census) :
    Keeps engines true (Brief.Counted census) where
  answers run number task action verifies := by
    unfold Brief.Counted
    by_cases isLast : action = .finalVerification
    · subst isLast
      rw [if_pos (by exact rfl)]
      unfold callEngine
      rw [if_pos ⟨rfl, verifies⟩]
      exact task.verify_brief engines.backend run.scheduler.store run.state
    · rw [if_neg (by exact isLast)]
      have other : ¬ (action.engine = .validation ∧ run.scheduler.verifiesItself = true) :=
        fun itself => isLast (Action.engine_eq_validation itself.1)
      obtain ⟨execution, returned, reports⟩ :=
        counts action.engine number task action run.state isLast
      have result : (run.callEngine engines number task action).1 = execution := by
        unfold callEngine
        rw [if_neg other]
        dsimp only
        rw [returned]
        unfold EngineReply.result
        dsimp only
        rw [if_pos (by rw [reports.1]; rfl)]
      exact result ▸ reports
  finishing brief execution counted := by
    unfold Brief.Counted at counted
    split at counted
    · rw [counted]
      exact brief.finishes_verification
    · rw [counted.1]
      rfl

end Run

/-! ### What the verification finds -/

namespace Task

variable {task : Task}

/-- The built-in verification succeeds iff the counts agree under all keys. -/
theorem verification_progress (task : Task) :
    (task.brief .finalVerification).verification.progress =
      if task.table.keys.all task.countsAgree then .succeeded else .failed := by
  unfold Table.keys
  cases partitioned : task.table.isPartitioned with
  | true =>
    rw [verification_brief partitioned, progress_verdict, if_pos rfl, List.all_map]
    refine if_congr ?_ rfl rfl
    unfold validatePartitions
    rw [List.isEmpty_iff, List.filter_eq_nil_iff, List.all_eq_true]
    refine forall₂_congr fun partition _ => ?_
    rw [Bool.not_eq_true', Bool.not_eq_false]
    rfl
  | false =>
    have flat : (!(task.brief .finalVerification).table.isPartitioned) = true := by
      show (!task.table.isPartitioned) = true
      rw [partitioned]
      rfl
    unfold Brief.verification
    dsimp only
    rw [if_pos flat, if_neg Bool.false_ne_true, List.all_cons, List.all_nil, Bool.and_true,
      apply_ite Execution.progress]
    rfl

end Task

/-! ### How tasks end -/

namespace Custody

variable {start custody : Custody} {allows : Brief → Execution → Prop} {acts : List Act}
  {number : Nat} {task : Task} {action : Action} {census : Census}

/-- With nothing on its way and nothing refused, an action that was cleared was executed. -/
theorem Certain.executed_of_cleared (certain : Certain allows start acts custody)
    (away : custody.items = 0) (left : custody.Left number)
    (found : custody.tasks number = some task) (accepted : .refused number action ∉ acts)
    (present : task.has action = true) (cleared : task.Cleared action) :
    ∃ execution, task.actionProgress action = some execution.progress ∧
      allows (task.brief action) execution ∧
      (action.engine ≠ .validation → task.ownCounts action = execution.counts) ∧
      .executed number action execution ∈ acts := by
  cases certain.stands away found (Task.mem_actions.mpr present) with
  | new progress => exact absurd progress (certain.not_new away left found cleared)
  | refused progress _ told =>
    have member : .refused number action ∈ Act.about number action acts :=
      told ▸ List.mem_cons_of_mem _ List.mem_cons_self
    exact absurd (Act.mem_about.mp member).1 accepted
  | executed execution progress final _ told =>
    obtain ⟨executed, allowed⟩ := certain.allowed found told
    refine ⟨execution, progress, allowed, fun counting => ?_, executed⟩
    rw [certain.ownCounts away found action, if_pos counting, Act.lastCounts_of_about_executed told]

section Counted

variable (certain : Certain (Brief.Counted census) start acts custody) (away : custody.items = 0)
  (left : custody.Left number) (found : custody.tasks number = some task)
  (accepted : ∀ action, .refused number action ∉ acts)

include certain away left found accepted

/-- Everything below the final verification succeeds. -/
theorem Certain.cleared_last : task.Cleared .finalVerification := by
  intro lower under progress now
  by_contra unsuccessful
  have pending : task.watermark ≠ none := fun all =>
    unsuccessful (Task.watermark_eq_none.mp all lower progress now)
  obtain ⟨action, waits, cleared⟩ := Task.exists_cleared_of_pending pending
  obtain ⟨progress', now', apart⟩ := Task.isPending_iff.mp waits
  have present : task.has action = true := by
    rw [Task.has_eq, now']
    rfl
  obtain ⟨execution, now'', allowed, _⟩ :=
    certain.executed_of_cleared away left found (accepted action) present cleared
  by_cases isLast : action = .finalVerification
  · subst isLast
    exact unsuccessful (cleared lower under progress now)
  · unfold Brief.Counted at allowed
    rw [if_neg (by exact isLast)] at allowed
    rw [allowed.1] at now''
    exact apart (Option.some.inj (now'.symm.trans now''))

/-- The final verification has compared what was counted. -/
theorem Certain.verified (has : task.has .finalVerification = true) :
    task.actionProgress .finalVerification =
        some (task.brief .finalVerification).verification.progress ∧
      .executed number .finalVerification (task.brief .finalVerification).verification ∈ acts := by
  obtain ⟨execution, now, allowed, _, executed⟩ := certain.executed_of_cleared away left found
    (accepted _) has (certain.cleared_last away left found accepted)
  have same : execution = (task.brief .finalVerification).verification := allowed
  subst same
  exact ⟨now, executed⟩

/-- A validation keeps what the census has. -/
theorem Certain.counts_census (present : task.has action = true)
    (validates : action = .sourceValidate ∨ action = .destinationValidate) {key : String}
    (mine : key ∈ task.table.keys) :
    (task.tableCounts action).get? key = census action task.table.fullName key := by
  have below : action ≠ .finalVerification := by
    rcases validates with rfl | rfl <;> decide
  have cleared : task.Cleared action := fun lower under =>
    certain.cleared_last away left found accepted lower (under.trans (below_finalVerification below))
  obtain ⟨execution, _, allowed, kept, _⟩ :=
    certain.executed_of_cleared away left found (accepted action) present cleared
  unfold Brief.Counted at allowed
  rw [if_neg (by exact below)] at allowed
  have counts : task.tableCounts action = execution.counts.getD [] :=
    congrArg (Option.getD · []) (kept (by rcases validates with rfl | rfl <;> decide))
  rw [counts]
  exact allowed.2 validates key mine

/-- So the counts of a verified task agree iff those of the census do. -/
theorem Certain.agree_census (verifiable : task.Verifiable) {key : String}
    (mine : key ∈ task.table.keys) :
    task.countsAgree key = census.agree task.table.fullName key := by
  have has : task.has .finalVerification = true := by
    by_contra none
    rw [verifiable.empty (Bool.eq_false_iff.mpr none)] at mine
    cases mine
  obtain ⟨source, destination⟩ := verifiable.counts has
  unfold Task.countsAgree Census.agree
  rw [RowCounts.agree_eq, certain.counts_census away left found accepted source (.inl rfl) mine,
    certain.counts_census away left found accepted destination (.inr rfl) mine]

theorem Certain.agreeAll_census (verifiable : task.Verifiable) :
    task.table.keys.all task.countsAgree = census.agreeAll task.table := by
  unfold Census.agreeAll
  rw [Bool.eq_iff_iff, List.all_eq_true, List.all_eq_true]
  refine forall₂_congr fun key mine => ?_
  rw [certain.agree_census away left found accepted verifiable mine]

/-- **In the end a task has succeeded iff both sides count the same under all its keys.** -/
theorem Certain.counted_progress (verifiable : task.Verifiable) :
    task.progress = if census.agreeAll task.table then .succeeded else .failed := by
  have summed := certain.summed number task found
  have cleared := certain.cleared_last away left found accepted
  have below : ∀ {action progress}, action ≠ .finalVerification →
      task.actionProgress action = some progress → progress = .succeeded :=
    fun apart now => cleared _ (below_finalVerification apart) _ now
  have busy : ∃ action, task.has action = true := by
    obtain ⟨action, member⟩ := List.exists_mem_of_ne_nil _ verifiable.busy
    exact ⟨action, Task.mem_actions.mp member⟩
  cases has : task.has .finalVerification with
  | true =>
    have now := (certain.verified away left found accepted has).1
    rw [Task.verification_progress,
      certain.agreeAll_census away left found accepted verifiable] at now
    split at now
    · rename_i agrees
      rw [if_pos agrees]
      refine summed.succeeded.mpr ⟨busy, fun action progress now' => ?_⟩
      by_cases isLast : action = .finalVerification
      · subst isLast
        exact Option.some.inj (now'.symm.trans now)
      · exact below isLast now'
    · rename_i differs
      rw [if_neg differs]
      exact summed.failed.mpr ⟨_, now⟩
  | false =>
    have agrees : census.agreeAll task.table = true := by
      unfold Census.agreeAll
      rw [verifiable.empty has]
      rfl
    rw [if_pos agrees]
    refine summed.succeeded.mpr ⟨busy, fun action progress now => ?_⟩
    refine below (fun isLast => ?_) now
    subst isLast
    rw [Task.has_eq, now] at has
    cases has

/-- **In the end a task settles the partitions for which both sides count the same.** -/
theorem Certain.counted_checkpoint (divided : custody.Divided acts) (verifiable : task.Verifiable)
    (partitioned : task.table.isPartitioned = true) (status : task.failureStatus = .succeeded) :
    task.checkpoint = some (.succeeded, task.table.partitions.filter fun partition =>
      census.agree task.table.fullName partition.key) := by
  have same : ∀ partition ∈ task.table.partitions, task.partitionAgrees partition =
      census.agree task.table.fullName partition.key := by
    intro partition member
    refine certain.agree_census away left found accepted verifiable ?_
    unfold Table.keys
    rw [if_pos partitioned]
    exact List.mem_map_of_mem member
  have progress := certain.counted_progress away left found accepted verifiable
  rw [← certain.agreeAll_census away left found accepted verifiable] at progress
  rw [← List.filter_congr same]
  unfold Task.checkpoint
  rw [partitioned, Bool.not_true, if_neg Bool.false_ne_true]
  split at progress
  · rename_i agrees
    have all : ∀ partition ∈ task.table.partitions, task.partitionAgrees partition = true := by
      unfold Table.keys at agrees
      rw [if_pos partitioned, List.all_map] at agrees
      exact List.all_eq_true.mp agrees
    rw [progress, List.filter_eq_self.mpr all]
  · obtain ⟨bad, failed⟩ := (certain.summed number task found).failed.mp progress
    obtain rfl : bad = .finalVerification := by
      by_contra apart
      cases certain.cleared_last away left found accepted bad (below_finalVerification apart) _ failed
    have has : task.has .finalVerification = true := by
      rw [Task.has_eq, failed]
      rfl
    have kept : task.validation = some task.validatePartitions := by
      have executed := (certain.verified away left found accepted has).2
      rw [Task.verification_brief partitioned] at executed
      refine (divided number _ _ task executed rfl found).resolve_left ?_
      rintro ⟨_, _, member⟩
      rw [away] at member
      cases member
    rw [progress]
    dsimp only
    rw [if_pos failed, kept, status]
    rfl

end Counted

end Custody

end TableMigration
