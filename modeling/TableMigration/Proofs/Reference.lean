/-
**What becomes of a task, one priority after the other.**

* A `Brief` is what an engine may look at when it decides how an action ends: the task as it was
  planned, and the counts of actions of strictly lower priorities.
* `Task.reference` goes through the priorities of a task in ascending order, handles all actions of a
  priority (`Task.handle`), and stops at the first priority with an action that failed.
* `Task.Concluded` says of a task when a run has left it as it may be left, without any order.
  `Task.Concluded.reference` — the reference is the only way in which this can be.
-/

import Mathlib.Data.List.Dedup
import TableMigration.Proofs.Account

namespace TableMigration

/-! ### Briefs -/

/-- What an engine may look at: the task as it was planned, the action, and what was counted
below. -/
structure Brief where
  name : String
  table : Table
  config : TableConfig
  store : Option StoreRef
  failureStatus : Status
  actions : List Action
  action : Action
  /-- The counts that actions of lower priorities recorded for the table. -/
  counts : Action → Option RowCounts

namespace Task

/-- The brief for an action, for given counts. -/
def briefOf (task : Task) (counts : Action → Option RowCounts) (action : Action) : Brief where
  name := task.name
  table := task.table
  config := task.config
  store := task.store
  failureStatus := task.failureStatus
  actions := task.actions
  action := action
  counts lower := if lower.priority < action.priority then counts lower else none

/-- The counts that an action has recorded for the table of its task. -/
def ownCounts (task : Task) (action : Action) : Option RowCounts :=
  task.rowCounts action task.table.fullName

/-- The brief for an action, as the task stands. -/
def brief (task : Task) (action : Action) : Brief :=
  task.briefOf task.ownCounts action

/-- Counts of higher priorities are not in the brief. -/
theorem briefOf_congr {task : Task} {first second : Action → Option RowCounts} {action : Action}
    (same : ∀ lower, lower.priority < action.priority → first lower = second lower) :
    task.briefOf first action = task.briefOf second action := by
  unfold briefOf
  congr 1
  funext lower
  split
  · rename_i under
    exact same lower under
  · rfl

end Task

/-- The result of comparing counts. -/
def Brief.verification (brief : Brief) : Execution :=
  let counts (action : Action) : RowCounts := (brief.counts action).getD []
  let agrees (key : String) : Bool :=
    (counts .sourceValidate).agree (counts .destinationValidate) key
  if !brief.table.isPartitioned then
    if agrees "" then .succeed else .fail s!"Row count mismatch on table {brief.table.fullName}"
  else Task.verdict {
    succeeded := brief.table.partitions.filter fun partition => agrees partition.key
    failed := brief.table.partitions.filter fun partition => !agrees partition.key }

theorem Brief.finishes_verification (brief : Brief) :
    brief.verification.progress.isTerminal = true := by
  unfold verification
  dsimp only
  split
  · split <;> rfl
  · unfold Task.verdict
    dsimp only
    split <;> rfl

/-- The built-in verification answers from the brief. -/
theorem Task.verify_brief {σ : Type} (backend : Backend σ) (store : Option StoreRef) (task : Task)
    (state : σ) : (task.verify backend store .finalVerification state).1 =
      (task.brief .finalVerification).verification := by
  unfold Task.verify
  rw [if_neg (not_not.mpr rfl)]
  unfold Brief.verification
  dsimp only
  by_cases flat : (!task.table.isPartitioned) = true
  · have flat' : (!(task.brief .finalVerification).table.isPartitioned) = true := flat
    rw [if_pos flat, if_pos flat']
    by_cases same : task.validateTable = true
    · rw [if_pos same]
      exact (if_pos same).symm
    · rw [if_neg same]
      exact (if_neg same).symm
  · have flat' : ¬ (!(task.brief .finalVerification).table.isPartitioned) = true := flat
    rw [if_neg flat, if_neg flat']
    rfl

/-- How an action ends for engines that behave in some way. -/
def Brief.answer (behaviour : Brief → EngineReply) (verifiesItself : Bool) (brief : Brief) :
    Execution :=
  if brief.action.engine = .validation ∧ verifiesItself then brief.verification
  else (behaviour brief).result

/-- Whether engines answer from the brief alone. -/
def Engines.Follow {σ : Type} (engines : Engines σ) (behaviour : Brief → EngineReply) : Prop :=
  ∀ number task action state,
    (engines.call action.engine number task action state).1 = behaviour (task.brief action)

theorem Run.callEngine_answer {σ : Type} {engines : Engines σ} {behaviour : Brief → EngineReply}
    (follow : engines.Follow behaviour) (run : Run σ) (number : Nat) (task : Task)
    (action : Action) : (run.callEngine engines number task action).1 =
      (task.brief action).answer behaviour run.scheduler.verifiesItself := by
  unfold callEngine Brief.answer
  by_cases itself : action.engine = .validation ∧ run.scheduler.verifiesItself = true
  · rw [if_pos itself, if_pos (show (task.brief action).action.engine = .validation ∧
      run.scheduler.verifiesItself = true from itself)]
    rw [Action.engine_eq_validation itself.1]
    exact Task.verify_brief _ _ task _
  · rw [if_neg itself, if_neg (show ¬ ((task.brief action).action.engine = .validation ∧
      run.scheduler.verifiesItself = true) from itself)]
    exact congrArg EngineReply.result (follow number task action run.state)

/-! ### The reference -/

/-- Where the actions of a task stand. -/
structure Course where
  progress : Action → Progress
  counts : Action → Option RowCounts

namespace Course

/-- Nothing was done yet. -/
def start : Course where
  progress _ := .new
  counts _ := none

/-- An action has ended. -/
def settle (course : Course) (action : Action) (progress : Progress)
    (counts : Option RowCounts) : Course where
  progress other := if other = action then progress else course.progress other
  counts other := if other = action then counts else course.counts other

/-- The progress of a task with some actions: it has succeeded iff all of them have, and is new iff
there are none. -/
def outcome (course : Course) (actions : List Action) : Progress :=
  if actions = [] then .new
  else if actions.all fun action => course.progress action = .succeeded then .succeeded
  else .failed

end Course

namespace Task

variable (task : Task) (answer : Brief → Execution) (accepts : Action → Bool)

/-- Handle an action: it succeeds iff it was accepted and was answered with success. -/
def handle (course : Course) (action : Action) : Course :=
  if accepts action then
    let execution := answer (task.briefOf course.counts action)
    course.settle action (if execution.progress = .succeeded then .succeeded else .failed)
      (if action.engine = .validation then none else execution.counts)
  else course.settle action .failed none

/-- The actions of a priority. -/
def tier (priority : Nat) : List Action :=
  task.actions.filter fun action => action.priority = priority

/-- The priorities of a task, in ascending order. -/
def priorities : List Nat :=
  (task.actions.map Action.priority).dedup

/-- Handle all actions of a priority. -/
def handleTier (course : Course) (priority : Nat) : Course :=
  (task.tier priority).foldl (task.handle answer accepts) course

/-- Handle one priority after the other, up to the first with an action that failed. -/
def follow : List Nat → Course → Course
  | [], course => course
  | priority :: rest, course =>
    let after := task.handleTier answer accepts course priority
    if (task.tier priority).any fun action => after.progress action = .failed then after
    else follow rest after

/-- What becomes of a task. -/
def reference : Course :=
  task.follow answer accepts task.priorities .start

variable {task} {answer} {accepts} {course : Course} {action other : Action}

theorem handle_of_ne (apart : other ≠ action) :
    (task.handle answer accepts course action).progress other = course.progress other ∧
      (task.handle answer accepts course action).counts other = course.counts other := by
  unfold handle
  split <;> exact ⟨if_neg apart, if_neg apart⟩

/-- What becomes of the action that is handled. -/
theorem handle_self :
    (task.handle answer accepts course action).progress action =
        (if accepts action ∧ (answer (task.briefOf course.counts action)).progress = .succeeded
          then .succeeded else .failed) ∧
      (task.handle answer accepts course action).counts action =
        if accepts action ∧ action.engine ≠ .validation then
          (answer (task.briefOf course.counts action)).counts
        else none := by
  unfold handle Course.settle
  cases accepts action <;> simp

/-- What is handled beside an action of the same priority does not touch it. -/
theorem handle_comm (apart : other ≠ action) (tier : other.priority = action.priority) :
    (task.handle answer accepts (task.handle answer accepts course action) other).progress other =
        (task.handle answer accepts course other).progress other ∧
      (task.handle answer accepts (task.handle answer accepts course action) other).counts other =
        (task.handle answer accepts course other).counts other := by
  have same : task.briefOf (task.handle answer accepts course action).counts other =
      task.briefOf course.counts other := by
    refine briefOf_congr fun lower under => (handle_of_ne ?_).2
    rintro rfl
    omega
  rw [handle_self.1, handle_self.2, handle_self.1, handle_self.2, same]
  exact ⟨rfl, rfl⟩

theorem mem_tier {priority : Nat} :
    action ∈ task.tier priority ↔ action ∈ task.actions ∧ action.priority = priority := by
  unfold tier
  rw [List.mem_filter, decide_eq_true_iff]

/-- Handling some actions of one priority is handling each of them. -/
theorem foldl_handle {actions : List Action} {priority : Nat} (distinct : actions.Nodup)
    (tier : ∀ action ∈ actions, action.priority = priority) (course : Course) (action : Action) :
    (actions.foldl (task.handle answer accepts) course).progress action =
        (if action ∈ actions then task.handle answer accepts course action
          else course).progress action ∧
      (actions.foldl (task.handle answer accepts) course).counts action =
        (if action ∈ actions then task.handle answer accepts course action
          else course).counts action := by
  induction actions generalizing course with
  | nil => exact ⟨rfl, rfl⟩
  | cons first rest hyp =>
    obtain ⟨fresh, distinct⟩ := List.nodup_cons.mp distinct
    have later := hyp distinct (fun other member => tier other (List.mem_cons_of_mem _ member))
      (task.handle answer accepts course first)
    rw [List.foldl_cons, later.1, later.2]
    by_cases same : action = first
    · subst same
      rw [if_neg fresh, if_pos List.mem_cons_self]
      exact ⟨rfl, rfl⟩
    · by_cases member : action ∈ rest
      · rw [if_pos member, if_pos (List.mem_cons_of_mem _ member)]
        refine handle_comm same ?_
        rw [tier action (List.mem_cons_of_mem _ member), tier first List.mem_cons_self]
      · have absent : action ∉ first :: rest := by
          rw [List.mem_cons, not_or]
          exact ⟨same, member⟩
        rw [if_neg member, if_neg absent]
        exact handle_of_ne same

variable {priority : Nat}

variable (task answer accepts) in
theorem handleTier_eq (course : Course) (priority : Nat) (action : Action) :
    (task.handleTier answer accepts course priority).progress action =
        (if action ∈ task.tier priority then task.handle answer accepts course action
          else course).progress action ∧
      (task.handleTier answer accepts course priority).counts action =
        (if action ∈ task.tier priority then task.handle answer accepts course action
          else course).counts action :=
  foldl_handle (task.actions_nodup.sublist List.filter_sublist)
    (fun _ member => (mem_tier.mp member).2) course action

variable (answer accepts course) in
/-- What stands beside a tier is not touched by it. -/
theorem handleTier_of_not_mem (away : action ∉ task.tier priority) :
    (task.handleTier answer accepts course priority).progress action = course.progress action ∧
      (task.handleTier answer accepts course priority).counts action = course.counts action := by
  have same := handleTier_eq task answer accepts course priority action
  rwa [if_neg away] at same

/-! ### The only way -/

/-- Whether a task stands where a run may leave it: what was cleared was handled, and nothing else
was touched. -/
structure Concluded (answer : Brief → Execution) (accepts : Action → Bool) (after : Task) :
    Prop where
  handled : ∀ action ∈ after.actions, after.Cleared action →
    after.actionProgress action = some
      (if accepts action ∧ (answer (after.brief action)).progress = .succeeded then .succeeded
        else .failed) ∧
    after.ownCounts action =
      if accepts action ∧ action.engine ≠ .validation then (answer (after.brief action)).counts
      else none
  untouched : ∀ action ∈ after.actions, ¬ after.Cleared action →
    after.actionProgress action = some .new ∧ after.ownCounts action = none

theorem ownCounts_of_absent {after : Task} (absent : action ∉ after.actions) :
    after.ownCounts action = none := by
  rw [mem_actions, has, Bool.not_eq_true, Option.isSome_eq_false_iff,
    Option.isNone_iff_eq_none] at absent
  unfold ownCounts rowCounts
  rw [absent]

/-- Whether a course is right about an action. -/
def Agrees (after : Task) (course : Course) (action : Action) : Prop :=
  (action ∈ after.actions → after.actionProgress action = some (course.progress action)) ∧
    after.ownCounts action = course.counts action

/-- Handling an action that was cleared is right. -/
theorem Concluded.handle {after : Task} (concluded : after.Concluded answer accepts)
    (member : action ∈ after.actions) (cleared : after.Cleared action)
    (below : ∀ lower, lower.priority < action.priority →
      after.ownCounts lower = course.counts lower) :
    after.Agrees (after.handle answer accepts course action) action ∧
      ((after.handle answer accepts course action).progress action ≠ .failed →
        (after.handle answer accepts course action).progress action = .succeeded) := by
  have same : after.briefOf course.counts action = after.brief action :=
    briefOf_congr fun lower under => (below lower under).symm
  obtain ⟨progress, counts⟩ := concluded.handled action member cleared
  refine ⟨⟨fun _ => ?_, ?_⟩, fun going => ?_⟩
  · rw [progress, handle_self.1, same]
  · rw [counts, handle_self.2, same]
  · rw [handle_self.1] at going ⊢
    split at going
    · rename_i done
      exact if_pos done
    · exact absurd rfl going

/-- Handling a tier is right when everything below it has succeeded. -/
theorem Concluded.tier {after : Task} (concluded : after.Concluded answer accepts)
    (below : ∀ lower, lower.priority < priority → after.Agrees course lower ∧
      (lower ∈ after.actions → course.progress lower = .succeeded))
    (fresh : course.counts action = none) (here : action.priority = priority) :
    after.Agrees (after.handleTier answer accepts course priority) action ∧
      (action ∈ after.actions →
        (after.handleTier answer accepts course priority).progress action ≠ .failed →
        (after.handleTier answer accepts course priority).progress action = .succeeded) := by
  by_cases member : action ∈ after.actions
  · have same := handleTier_eq after answer accepts course priority action
    rw [if_pos (mem_tier.mpr ⟨member, here⟩)] at same
    have cleared : after.Cleared action := by
      intro lower under progress found
      have present : lower ∈ after.actions := by
        rw [mem_actions, has_eq, found]
        rfl
      obtain ⟨agrees, succeeded⟩ := below lower (here ▸ under)
      rw [agrees.1 present, succeeded present] at found
      exact (Option.some.inj found).symm
    obtain ⟨agrees, ends⟩ := concluded.handle member cleared
      fun lower under => (below lower (here ▸ under)).1.2
    unfold Agrees
    rw [same.1, same.2]
    exact ⟨agrees, fun _ => ends⟩
  · have away : action ∉ after.tier priority := fun tier => member (mem_tier.mp tier).1
    have same := handleTier_of_not_mem answer accepts course away
    refine ⟨⟨fun present => absurd present member, ?_⟩, fun present => absurd present member⟩
    rw [ownCounts_of_absent member, same.2, fresh]

theorem Agrees.of_same {after : Task} {first second : Course} (agrees : after.Agrees first action)
    (same : second.progress action = first.progress action ∧
      second.counts action = first.counts action) : after.Agrees second action := by
  unfold Agrees
  rw [same.1, same.2]
  exact agrees

/-- A course that has not touched an action is right if the action was never cleared. -/
theorem Concluded.fresh {after : Task} (concluded : after.Concluded answer accepts)
    (blocked : ¬ after.Cleared action)
    (fresh : course.progress action = .new ∧ course.counts action = none) :
    after.Agrees course action := by
  unfold Agrees
  rw [fresh.1, fresh.2]
  by_cases among : action ∈ after.actions
  · obtain ⟨progress, counts⟩ := concluded.untouched action among blocked
    exact ⟨fun _ => progress, counts⟩
  · exact ⟨fun present => absurd present among, ownCounts_of_absent among⟩

/-- Whether some priorities are still to be followed: the course is right about all others, which
lie below and have succeeded, and it has touched none of these. -/
structure Awaits (after : Task) (priorities : List Nat) (course : Course) : Prop where
  ascending : priorities.Pairwise (· < ·)
  agrees : ∀ action, action.priority ∉ priorities → after.Agrees course action
  done : ∀ action ∈ after.actions, action.priority ∉ priorities →
    course.progress action = .succeeded ∧ ∀ priority ∈ priorities, action.priority < priority
  fresh : ∀ action, action.priority ∈ priorities →
    course.progress action = .new ∧ course.counts action = none

section Awaits

variable {after : Task} {rest : List Nat}

theorem Awaits.later (awaits : after.Awaits (priority :: rest) course) {other : Nat}
    (behind : other ∈ rest) : priority < other :=
  List.rel_of_pairwise_cons awaits.ascending behind

theorem Awaits.below (awaits : after.Awaits (priority :: rest) course) {lower : Action}
    (under : lower.priority < priority) : lower.priority ∉ priority :: rest := by
  intro member
  rcases List.mem_cons.mp member with same | behind
  · omega
  · have above := awaits.later behind
    omega

variable (after answer accepts course) in
theorem handleTier_of_ne (apart : action.priority ≠ priority) :
    (after.handleTier answer accepts course priority).progress action = course.progress action ∧
      (after.handleTier answer accepts course priority).counts action = course.counts action :=
  handleTier_of_not_mem answer accepts course fun member => apart (mem_tier.mp member).2

/-- What lies beside the priorities that are awaited stays right. -/
theorem Awaits.beside (awaits : after.Awaits (priority :: rest) course)
    (outside : action.priority ∉ priority :: rest) :
    after.Agrees (after.handleTier answer accepts course priority) action :=
  (awaits.agrees action outside).of_same
    (handleTier_of_ne answer accepts course after fun here => outside (here ▸ List.mem_cons_self))

/-- The first of the priorities that are awaited is handled right. -/
theorem Awaits.handled (awaits : after.Awaits (priority :: rest) course)
    (concluded : after.Concluded answer accepts) (here : action.priority = priority) :
    after.Agrees (after.handleTier answer accepts course priority) action ∧
      (action ∈ after.actions →
        (after.handleTier answer accepts course priority).progress action ≠ .failed →
        (after.handleTier answer accepts course priority).progress action = .succeeded) :=
  concluded.tier
    (fun lower under => ⟨awaits.agrees lower (awaits.below under),
      fun present => (awaits.done lower present (awaits.below under)).1⟩)
    (awaits.fresh action (here ▸ List.mem_cons_self)).2 here

/-- Above a tier with an action that failed nothing was touched. -/
theorem Awaits.stops (awaits : after.Awaits (priority :: rest) course)
    (concluded : after.Concluded answer accepts) {bad : Action} (member : bad ∈ after.tier priority)
    (failed : (after.handleTier answer accepts course priority).progress bad = .failed)
    (action : Action) : after.Agrees (after.handleTier answer accepts course priority) action := by
  obtain ⟨present, here⟩ := mem_tier.mp member
  by_cases outside : action.priority ∉ priority :: rest
  · exact awaits.beside outside
  rcases List.mem_cons.mp (not_not.mp outside) with same | behind
  · exact (awaits.handled concluded same).1
  · have above := awaits.later behind
    have apart : action.priority ≠ priority := by omega
    have unchanged := handleTier_of_ne answer accepts course after apart
    have blocked : ¬ after.Cleared action := by
      intro cleared
      have progress := (awaits.handled concluded here).1.1 present
      rw [failed] at progress
      cases cleared bad (by omega) .failed progress
    exact (concluded.fresh blocked (awaits.fresh action (not_not.mp outside))).of_same unchanged

/-- A tier without a failure has succeeded, and the others are awaited. -/
theorem Awaits.next (awaits : after.Awaits (priority :: rest) course)
    (concluded : after.Concluded answer accepts)
    (going : ∀ action ∈ after.tier priority,
      (after.handleTier answer accepts course priority).progress action ≠ .failed) :
    after.Awaits rest (after.handleTier answer accepts course priority) := by
  have away : ∀ {action : Action}, action.priority ≠ priority → action.priority ∉ rest →
      action.priority ∉ priority :: rest := fun apart outside member =>
    (List.mem_cons.mp member).elim apart outside
  refine ⟨awaits.ascending.of_cons, fun action outside => ?_, fun action among outside => ?_,
    fun action inside => ?_⟩
  · by_cases here : action.priority = priority
    · exact (awaits.handled concluded here).1
    · exact awaits.beside (away here outside)
  · by_cases here : action.priority = priority
    · refine ⟨(awaits.handled concluded here).2 among (going action (mem_tier.mpr ⟨among, here⟩)),
        fun other behind => here ▸ awaits.later behind⟩
    · obtain ⟨succeeded, bound⟩ := awaits.done action among (away here outside)
      exact ⟨(handleTier_of_ne answer accepts course after here).1.trans succeeded,
        fun other behind => bound other (List.mem_cons_of_mem _ behind)⟩
  · have above := awaits.later inside
    have apart : action.priority ≠ priority := by omega
    have unchanged := handleTier_of_ne answer accepts course after apart
    have fresh := awaits.fresh action (List.mem_cons_of_mem _ inside)
    exact ⟨unchanged.1.trans fresh.1, unchanged.2.trans fresh.2⟩

/-- **Whatever a run may leave is what the reference says**, from any priority on. -/
theorem Concluded.follow (concluded : after.Concluded answer accepts) {priorities : List Nat}
    {course : Course} (awaits : after.Awaits priorities course) (action : Action) :
    after.Agrees (after.follow answer accepts priorities course) action := by
  induction priorities generalizing course with
  | nil => exact awaits.agrees action List.not_mem_nil
  | cons priority rest hyp =>
    rw [Task.follow]
    split
    · rename_i stops
      obtain ⟨bad, member, failed⟩ := List.any_eq_true.mp stops
      exact awaits.stops concluded member (of_decide_eq_true failed) action
    · rename_i goes
      refine hyp (awaits.next concluded fun other member failed => goes ?_)
      exact List.any_eq_true.mpr ⟨other, member, decide_eq_true failed⟩

end Awaits

theorem priorities_ascending (task : Task) : task.priorities.Pairwise (· < ·) := by
  have sorted : task.priorities.Pairwise (· ≤ ·) :=
    (List.pairwise_map.mpr task.actions_pairwise).sublist (List.dedup_sublist _)
  refine (sorted.and (List.nodup_dedup _)).imp fun bound => ?_
  exact Nat.lt_of_le_of_ne bound.1 bound.2

/-- **The reference is the only way in which a task can be left.** -/
theorem Concluded.reference {after : Task} (concluded : after.Concluded answer accepts)
    (action : Action) : after.Agrees (after.reference answer accepts) action := by
  have absent : ∀ action : Action, action.priority ∉ after.priorities → action ∉ after.actions :=
    fun action outside present => outside (List.mem_dedup.mpr (List.mem_map_of_mem present))
  have awaits : after.Awaits after.priorities .start :=
    { ascending := after.priorities_ascending
      agrees := fun action outside => ⟨fun present => absurd present (absent action outside),
        ownCounts_of_absent (absent action outside)⟩
      done := fun action present outside => absurd present (absent action outside)
      fresh := fun _ _ => ⟨rfl, rfl⟩ }
  exact concluded.follow awaits action

/-- The lowest action that has not succeeded was cleared. -/
theorem exists_cleared_of_pending {task : Task} (pending : task.watermark ≠ none) :
    ∃ action, task.isPending action = true ∧ task.Cleared action := by
  obtain ⟨lowest, mark⟩ := Option.ne_none_iff_exists'.mp pending
  obtain ⟨⟨action, waits, here⟩, least⟩ := watermark_eq_some mark
  refine ⟨action, waits, fun lower under progress found => ?_⟩
  by_contra different
  have := least lower (isPending_iff.mpr ⟨progress, found, different⟩)
  omega

/-- The progress of the task goes with the reference. -/
theorem Concluded.outcome {after : Task} (concluded : after.Concluded answer accepts)
    (summed : after.Summed) :
    after.progress = (after.reference answer accepts).outcome after.actions := by
  have agrees : ∀ action ∈ after.actions, _ := fun action present =>
    (concluded.reference action).1 present
  have present : ∀ {action progress}, after.actionProgress action = some progress →
      action ∈ after.actions := by
    intro action progress found
    rw [mem_actions, has_eq, found]
    rfl
  unfold Course.outcome
  split
  · rename_i idle
    refine summed.new.mpr fun action progress found => ?_
    exact absurd (idle ▸ present found) List.not_mem_nil
  rename_i busy
  split
  · rename_i all
    obtain ⟨first, member⟩ := List.exists_mem_of_ne_nil _ busy
    refine summed.succeeded.mpr ⟨⟨first, mem_actions.mp member⟩, fun action progress found => ?_⟩
    have here := agrees action (present found)
    rw [of_decide_eq_true (List.all_eq_true.mp all action (present found)), found] at here
    exact Option.some.inj here
  · rename_i open_
    refine summed.failed.mpr ?_
    have pending : after.watermark ≠ none := by
      intro mark
      refine open_ (List.all_eq_true.mpr fun action member => decide_eq_true ?_)
      exact watermark_eq_none.mp mark action _ (agrees action member)
    obtain ⟨action, waits, cleared⟩ := exists_cleared_of_pending pending
    obtain ⟨progress, found, apart⟩ := isPending_iff.mp waits
    refine ⟨action, ?_⟩
    have handled := (concluded.handled action (present found) cleared).1
    rw [handled] at found ⊢
    split at found
    · exact absurd (Option.some.inj found).symm apart
    · rename_i unsuccessful
      rw [if_neg unsuccessful]

end Task

end TableMigration
