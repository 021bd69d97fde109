/-
**What a task does outside.**

* `Task.effects` — everything that a task does outside while it takes some calls: signals of its
  failure, and writes on its store.
* `Task.endEffects` — what the end of a task calls for, from what its calls had set at that moment.
* `Task.effects_of_calls` — whatever a task is called for, these are its effects when it ends, and
  it has no others before or after. `Task.live` shows them, whatever the stores answer.
-/

import TableMigration.Proofs.Calls

namespace TableMigration

/-! ### Effects -/

/-- Something that a task does outside. -/
inductive Effect where
  /-- Tell a listener that a task of the table failed. -/
  | signal (listener : Listener) (database table : String)
  /-- Make a write on a store. -/
  | write (store : StoreRef) (write : Write)

/-- The effect that an event shows. -/
def Event.effect? : Event → Option Effect
  | .signalled database table => some (.signal .observer database table)
  | .wrote store change => some (.write store change)
  | _ => none

namespace Effect

/-- Whether an effect is seen as an event. A scheduler keeps the signals it gets to itself. -/
def isSeen : Effect → Bool
  | .signal .scheduler _ _ => false
  | _ => true

/-- What an effect makes of the stores. -/
def apply {σ : Type} (backend : Backend σ) (state : σ) : Effect → σ
  | .signal .. => state
  | .write store change => (backend.write store change state).2

end Effect

namespace Call

/-- Who shall listen after a call for it. -/
def listener? : Call → Option (Option Listener)
  | .listen listener => some listener
  | _ => none

/-- The division that shall be kept after a call for it. -/
def division? : Call → Option Validation
  | .divide validation => some validation
  | _ => none

end Call

namespace Task

/-- What a task does outside to make a delivery: without a store, a write comes to nothing. -/
def effectsOf (task : Task) : Delivery → List Effect
  | .signal listener => [.signal listener task.table.database task.table.name]
  | .write write => task.store.toList.map fun store => .write store write

/-- What a task does outside while it takes some calls. -/
def effects (task : Task) : List Call → List Effect
  | [] => []
  | call :: rest =>
    (task.call call).deliveries.flatMap (task.call call).task.effectsOf ++
      (task.call call).task.effects rest

/-- A task takes some calls, with the events that can be seen. -/
def live {σ : Type} (backend : Backend σ) (task : Task) : List Call → σ → List Event × σ
  | [], state => ([], state)
  | call :: rest, state =>
    let update := task.call call
    let (events, state) := update.task.deliverAll backend update.deliveries state
    let (later, state) := update.task.live backend rest state
    (update.notices.map .notice ++ events ++ later, state)

/-- The signal of a failure, to the listener or else to the store. -/
def failureEffects (task : Task) : Option Listener → List Effect
  | some listener => [.signal listener task.table.database task.table.name]
  | none => task.store.toList.map fun store =>
      .write store (.failure task.table.database task.table.name)

/-- The write of a status for some partitions, if there are any. -/
def settleEffects (task : Task) (partitions : List Partition) (status : Status) : List Effect :=
  if task.table.isPartitioned ∧ partitions ≠ [] then
    task.store.toList.map fun store =>
      .write store (.status task.table.database task.table.name partitions status)
  else []

/-- What a task does outside when the report of an action ends it, with this listener and this
division of its partitions. -/
def endEffects (task : Task) (listener : Option Listener) (division : Option Validation)
    (action : Action) : Progress → List Effect
  | .succeeded => task.settleEffects task.table.partitions .succeeded
  | .failed =>
    task.failureEffects listener ++
      if action = .finalVerification then
        task.settleEffects ((division.map Validation.succeeded).getD task.table.partitions)
          task.failureStatus
      else []
  | .new | .running => []

variable {task : Task} {call : Call} {calls : List Call} {action : Action} {reported : Progress}

/-! ### What calls leave -/

theorem call_sameKind (task : Task) (call : Call) : SameKind (task.call call).task task := by
  cases call with
  | report action reported => exact task.update_sameKind action reported
  | listen listener => exact ⟨rfl, rfl, rfl, rfl, rfl, fun _ => rfl⟩
  | divide validation => exact task.withValidation_sameKind { Execution.succeed with validation }
  | count action table counts =>
    have has : ∀ other, (task.call (.count action table counts)).task.has other = task.has other := by
      intro other
      rw [has_eq, has_eq, (call_of_silent fun _ => rfl).2]
    refine ⟨?_, ?_, ?_, ?_, ?_, has⟩ <;> rw [Task.call, keepCounts] <;> split <;> rfl

theorem after_sameKind (task : Task) (calls : List Call) : SameKind (task.after calls) task := by
  induction calls generalizing task with
  | nil => exact .refl task
  | cons call rest hyp => exact (hyp _).trans (task.call_sameKind call)

theorem WellKept.after_call (kept : task.WellKept) (call : Call) :
    (task.call call).task.WellKept := by
  cases call with
  | report action reported => exact kept.update action reported
  | listen listener => exact kept
  | divide validation => exact kept.withValidation { Execution.succeed with validation }
  | count action table counts =>
    rw [Task.call, keepCounts]
    split
    · rename_i found
      have suits := kept action _ found
      exact kept.setRecord _ suits
    · exact kept

theorem listener_call (task : Task) (call : Call) :
    (task.call call).task.listener = call.listener?.getD task.listener := by
  cases call with
  | report action reported => exact task.listener_update action reported
  | listen listener => rfl
  | divide validation =>
    rw [Task.call, keepValidation]
    split <;> rfl
  | count action table counts =>
    rw [Task.call, keepCounts]
    split <;> rfl

/-- A final verification keeps the division that its task is called for. -/
theorem validation_call (kept : task.WellKept) (has : task.has .finalVerification = true)
    (call : Call) : (task.call call).task.validation = call.division?.or task.validation := by
  cases call with
  | report action reported => exact task.validation_update action reported
  | listen listener => rfl
  | divide validation =>
    let verdict : Execution := { Execution.succeed with validation }
    have set : verdict.validation = some validation := rfl
    exact validation_withValidation kept has set
  | count action table counts =>
    rw [Task.call, keepCounts]
    split
    · rename_i found
      have apart : Action.finalVerification ≠ action := by
        rintro rfl
        exact kept _ _ found rfl
      show Task.validation (task.setRecord _ _) = _
      unfold Task.validation
      rw [records_setRecord_of_ne _ _ apart]
      rfl
    · rfl

/-- The last call for a listener leaves it. -/
theorem listener_after (task : Task) (calls : List Call) :
    (task.after calls).listener = (calls.filterMap Call.listener?).getLast?.getD task.listener := by
  induction calls generalizing task with
  | nil => rfl
  | cons call rest hyp =>
    have later := hyp (task.call call).task
    rw [listener_call] at later
    cases set : call.listener? with
    | none => rwa [List.filterMap_cons_none set, ← @Option.getD_none _ task.listener, ← set]
    | some listener =>
      rw [List.filterMap_cons_some set, List.getLast?_cons]
      rwa [set] at later

/-- The last call for a division leaves it. -/
theorem validation_after (kept : task.WellKept) (has : task.has .finalVerification = true)
    (calls : List Call) :
    (task.after calls).validation =
      (calls.filterMap Call.division?).getLast?.or task.validation := by
  induction calls generalizing task with
  | nil => rfl
  | cons call rest hyp =>
    have later := hyp (kept.after_call call) (((task.call_sameKind call).has _).trans has)
    rw [validation_call kept has] at later
    cases set : call.division? with
    | none =>
      rw [List.filterMap_cons_none set]
      rwa [set] at later
    | some division =>
      rw [List.filterMap_cons_some set, List.getLast?_cons]
      rwa [set, Option.some_or, Option.or_some] at later

/-! ### The end of a task -/

theorem SameKind.failureEffects {first second : Task} (kind : SameKind first second) :
    first.failureEffects = second.failureEffects := by
  funext listener
  cases listener <;> simp only [Task.failureEffects, kind.table, kind.store]

theorem SameKind.settleEffects {first second : Task} (kind : SameKind first second) :
    first.settleEffects = second.settleEffects := by
  funext partitions status
  simp only [Task.settleEffects, kind.table, kind.store]

/-- A task has only one end. -/
theorem deliveries_of_same (same : (task.call call).task.progress = task.progress) :
    (task.call call).deliveries = [] := by
  cases call with
  | report action reported =>
    exact ((task.update_answers action reported).resolve_right fun goes => goes.1 same).2.2
  | divide | count | listen => rfl

/-- Nothing follows the end of a task. -/
theorem effects_of_ended (ended : task.progress.isTerminal = true) (calls : List Call) :
    task.effects calls = [] := by
  induction calls generalizing task with
  | nil => rfl
  | cons call rest hyp =>
    have same := progress_call_of_ended ended call
    rw [effects, deliveries_of_same same, hyp (same ▸ ended)]
    rfl

theorem flatMap_effectsOf_checkpoint {status : Status} {partitions : List Partition}
    (settles : task.checkpoint =
      if task.table.isPartitioned then some (status, partitions) else none) :
    task.checkpointDeliveries.flatMap task.effectsOf = task.settleEffects partitions status := by
  unfold checkpointDeliveries settleEffects
  rw [settles]
  by_cases partitioned : task.table.isPartitioned = true
  · cases partitions with
    | nil => simp [partitioned]
    | cons first rest => simp [partitioned, effectsOf]
  · simp [partitioned]

theorem checkpoint_of_succeeded (succeeded : task.progress = .succeeded) :
    task.checkpoint =
      if task.table.isPartitioned then some (.succeeded, task.table.partitions) else none := by
  unfold checkpoint
  rw [succeeded]
  cases task.table.isPartitioned <;> rfl

theorem checkpoint_of_unverified (failed : task.progress = .failed)
    (unverified : task.actionProgress .finalVerification = some .failed) :
    task.checkpoint =
      if task.table.isPartitioned then
        some (task.failureStatus,
          (task.validation.map Validation.succeeded).getD task.table.partitions)
      else none := by
  unfold checkpoint
  rw [failed]
  simp only [unverified, if_true]
  cases task.table.isPartitioned <;> rfl

theorem checkpoint_of_broken (failed : task.progress = .failed)
    (other : task.actionProgress .finalVerification ≠ some .failed) : task.checkpoint = none := by
  unfold checkpoint
  rw [failed]
  simp only [other, if_false]
  cases task.table.isPartitioned <;> rfl

theorem flatMap_effectsOf_failure (failed : task.progress = .failed) :
    task.failureDeliveries.flatMap task.effectsOf = task.failureEffects task.listener := by
  unfold failureDeliveries failureEffects
  rw [if_pos failed]
  cases task.listener <;> simp [effectsOf]

/-- A report that ends a task is the end of one of its actions. -/
theorem reported_of_ends (going : task.progress.isTerminal = false)
    (ended : (task.update action reported).task.progress.isTerminal = true) :
    task.Takes action reported ∧ (task.update action reported).task.progress = reported := by
  by_cases taken : task.Takes action reported
  · refine ⟨taken, ?_⟩
    cases reported with
    | new =>
      rw [progress_update_new, going] at ended
      cases ended
    | running =>
      rw [progress_update_running taken going] at ended
      cases ended
    | failed => exact progress_update_failed taken going
    | succeeded =>
      rw [progress_update_succeeded taken going] at ended ⊢
      split
      · rfl
      · rename_i mark
        rw [if_neg mark, going] at ended
        cases ended
  · rw [update_of_not_takes taken] at ended
    exact absurd ended (by rw [unchanged, going]; nofun)

/-- **The end of a task has its effects.** -/
theorem effects_of_ends (judged : task.Judged) (going : task.progress.isTerminal = false)
    (ended : (task.update action reported).task.progress.isTerminal = true) :
    (task.update action reported).deliveries.flatMap
        (task.update action reported).task.effectsOf =
      task.endEffects task.listener task.validation action reported := by
  obtain ⟨taken, same⟩ := reported_of_ends going ended
  have apart : (task.update action reported).task.progress ≠ task.progress := by
    intro equal
    rw [equal, going] at ended
    cases ended
  have kind := task.update_sameKind action reported
  rw [((task.update_answers action reported).resolve_left fun stays => apart stays.1).2.2,
    List.flatMap_append]
  cases reported with
  | new | running =>
    rw [same] at ended
    cases ended
  | succeeded =>
    have quiet : (task.update action .succeeded).task.failureDeliveries = [] :=
      if_neg (by rw [same]; nofun)
    rw [quiet, flatMap_effectsOf_checkpoint (checkpoint_of_succeeded same), kind.settleEffects,
      kind.table]
    rfl
  | failed =>
    rw [flatMap_effectsOf_failure same, kind.failureEffects, listener_update]
    show _ = _ ++ _
    congr 1
    by_cases verifying : action = .finalVerification
    · have unverified : (task.update action .failed).task.actionProgress .finalVerification =
          some .failed := by
        rw [actionProgress_update taken, if_pos verifying.symm]
      rw [if_pos verifying, flatMap_effectsOf_checkpoint (checkpoint_of_unverified same unverified),
        kind.settleEffects, kind.failureStatus, kind.table, validation_update]
    · -- No action had failed before, so that a failure of the verification would be this one.
      have other : (task.update action .failed).task.actionProgress .finalVerification ≠
          some .failed := by
        rw [actionProgress_update taken, if_neg (Ne.symm verifying)]
        intro before
        rw [judged.failed.mpr ⟨_, before⟩] at going
        cases going
      rw [if_neg verifying, checkpointDeliveries, checkpoint_of_broken same other]
      rfl

/-- A task that goes on calls for nothing. -/
theorem deliveries_of_going (going : (task.call call).task.progress.isTerminal = false) :
    (task.call call).deliveries = [] := by
  cases call with
  | divide | count | listen => rfl
  | report action reported =>
    rcases task.update_answers action reported with ⟨-, -, unchanged⟩ | ⟨-, -, calls⟩
    · exact unchanged
    · have quiet : ∀ {after : Task}, after.progress.isTerminal = false →
          after.failureDeliveries = [] ∧ after.checkpointDeliveries = [] := by
        intro after going
        unfold failureDeliveries checkpointDeliveries checkpoint
        cases progress : after.progress with
        | failed | succeeded =>
          rw [progress] at going
          cases going
        | new | running => cases after.table.isPartitioned <;> exact ⟨rfl, rfl⟩
      obtain ⟨unfailed, unsettled⟩ := quiet going
      exact calls.trans (congrArg₂ _ unfailed unsettled)

theorem progress_after_of_ended (ended : task.progress.isTerminal = true) (calls : List Call) :
    (task.after calls).progress = task.progress := by
  induction calls generalizing task with
  | nil => rfl
  | cons call rest hyp =>
    have same := progress_call_of_ended ended call
    exact (hyp (same ▸ ended)).trans same

/-- A task that goes on does nothing outside, and one that ends has the effects of its end. -/
theorem effects_cases (judged : task.Judged) (going : task.progress.isTerminal = false)
    (calls : List Call) :
    ((task.after calls).progress.isTerminal = false ∧ task.effects calls = []) ∨
      ∃ before action ending later, calls = before ++ .report action ending :: later ∧
        (task.after before).progress.isTerminal = false ∧ ending.isTerminal = true ∧
        (task.after (before ++ [.report action ending])).progress = ending ∧
        (task.after calls).progress = ending ∧
        task.effects calls = task.endEffects (task.after before).listener
          (task.after before).validation action ending := by
  induction calls generalizing task with
  | nil => exact .inl ⟨going, rfl⟩
  | cons call rest hyp =>
    by_cases ends : (task.call call).task.progress.isTerminal = true
    · cases call with
      | divide | count | listen =>
        rw [(call_of_silent fun _ => rfl).1, going] at ends
        cases ends
      | report action reported =>
        have same := (reported_of_ends going ends).2
        refine .inr ⟨[], action, reported, rest, rfl, going, same ▸ ends, same, ?_, ?_⟩
        · exact (progress_after_of_ended ends rest).trans same
        · rw [effects, effects_of_ended ends, List.append_nil]
          exact effects_of_ends judged going ends
    · have going' := Bool.eq_false_iff.mpr ends
      have kind := task.call_sameKind call
      have first : task.effects (call :: rest) = (task.call call).task.effects rest := by
        rw [effects, deliveries_of_going going']
        rfl
      have sameEnd : (task.call call).task.endEffects = task.endEffects := by
        funext listener division action ending
        cases ending <;> simp only [endEffects, kind.failureEffects, kind.settleEffects,
          kind.table, kind.failureStatus]
      rw [first]
      rcases hyp (judged.after_call call) going' with goes |
        ⟨before, action, ending, later, rfl, before', ended, last, still, effects⟩
      · exact .inl goes
      · exact .inr ⟨call :: before, action, ending, later, rfl, before', ended, last, still,
          sameEnd ▸ effects⟩

/-! ### What can be seen -/

variable {σ : Type}

theorem effects_notices (notices : List Notice) :
    (notices.map Event.notice).filterMap Event.effect? = [] := by
  rw [List.filterMap_map]
  exact List.filterMap_eq_nil_iff.mpr fun _ _ => rfl

/-- A delivery shows its effect, and changes the stores by it alone. -/
theorem deliver_effects (backend : Backend σ) (task : Task) (delivery : Delivery) (state : σ) :
    (task.deliver backend delivery state).1.filterMap Event.effect? =
        (task.effectsOf delivery).filter Effect.isSeen ∧
      (task.deliver backend delivery state).2 =
        (task.effectsOf delivery).foldl (Effect.apply backend) state := by
  cases delivery with
  | signal listener => cases listener <;> exact ⟨rfl, rfl⟩
  | write write =>
    unfold deliver effectsOf
    cases task.store with
    | none => exact ⟨rfl, rfl⟩
    | some store =>
      refine ⟨?_, rfl⟩
      show (_ :: _ ++ _).filterMap Event.effect? = [Effect.write store write]
      rw [List.cons_append, List.filterMap_cons_some (by rfl), List.filterMap_append,
        effects_notices, effects_notices]
      rfl

theorem deliverAll_effects (backend : Backend σ) (task : Task) (deliveries : List Delivery)
    (state : σ) :
    (task.deliverAll backend deliveries state).1.filterMap Event.effect? =
        (deliveries.flatMap task.effectsOf).filter Effect.isSeen ∧
      (task.deliverAll backend deliveries state).2 =
        (deliveries.flatMap task.effectsOf).foldl (Effect.apply backend) state := by
  induction deliveries generalizing state with
  | nil => exact ⟨rfl, rfl⟩
  | cons delivery rest hyp =>
    obtain ⟨shown, made⟩ := task.deliver_effects backend delivery state
    obtain ⟨later, rest⟩ := hyp (task.deliver backend delivery state).2
    unfold deliverAll
    dsimp only
    rw [List.filterMap_append, List.flatMap_cons, List.filter_append, List.foldl_append, shown,
      later, ← made, rest]
    exact ⟨rfl, rfl⟩

/-- A task shows its effects while it lives, and changes the stores by them alone. -/
theorem live_effects (backend : Backend σ) (task : Task) (calls : List Call) (state : σ) :
    (task.live backend calls state).1.filterMap Event.effect? =
        (task.effects calls).filter Effect.isSeen ∧
      (task.live backend calls state).2 =
        (task.effects calls).foldl (Effect.apply backend) state := by
  induction calls generalizing task state with
  | nil => exact ⟨rfl, rfl⟩
  | cons call rest hyp =>
    obtain ⟨shown, made⟩ := (task.call call).task.deliverAll_effects backend
      (task.call call).deliveries state
    obtain ⟨later, rest⟩ := hyp (task.call call).task
      ((task.call call).task.deliverAll backend (task.call call).deliveries state).2
    unfold live
    dsimp only
    rw [List.filterMap_append, List.filterMap_append, effects_notices, effects, List.filter_append,
      List.foldl_append, shown, later, ← made, rest]
    exact ⟨rfl, rfl⟩

/-! ### All effects of a task -/

theorem ne_nil_of_mem_settleEffects {partitions other : List Partition} {status last : Status}
    {store : StoreRef} {database name : String}
    (member : .write store (.status database name partitions status) ∈
      task.settleEffects other last) : partitions ≠ [] := by
  unfold settleEffects at member
  split at member
  · rename_i settles
    obtain ⟨_, _, same⟩ := List.mem_map.mp member
    cases same
    exact settles.2
  · cases member

/-- No status is written for an empty list, which would address the row of the table. -/
theorem ne_nil_of_mem_endEffects {listener : Option Listener} {division : Option Validation}
    {ending : Progress} {store : StoreRef} {database name : String}
    {partitions : List Partition} {status : Status}
    (member : .write store (.status database name partitions status) ∈
      task.endEffects listener division action ending) : partitions ≠ [] := by
  cases ending with
  | new | running => cases member
  | succeeded => exact ne_nil_of_mem_settleEffects member
  | failed =>
    rcases List.mem_append.mp member with failing | settling
    · cases listener with
      | some listener => cases List.mem_singleton.mp failing
      | none =>
        obtain ⟨_, _, same⟩ := List.mem_map.mp failing
        cases same
    · split at settling
      · exact ne_nil_of_mem_settleEffects settling
      · cases settling

theorem listener_addActions (task : Task) (actions : List Action) :
    (task.addActions actions).listener = task.listener := by
  induction actions generalizing task with
  | nil => rfl
  | cons action rest hyp => exact hyp (task.addAction action)

theorem Fresh.validation (fresh : task.Fresh) : task.validation = none := by
  unfold Task.validation
  split
  · rename_i found
    have same := fresh.records _ _ found
    cases same
    rfl
  · rfl

/-- A division is settled by the end of a final verification only. -/
theorem endEffects_congr {first second : Option Validation} (listener : Option Listener)
    (ending : Progress) (same : action = .finalVerification → first = second) :
    task.endEffects listener first action ending =
      task.endEffects listener second action ending := by
  cases ending with
  | new | running | succeeded => rfl
  | failed =>
    by_cases verifying : action = .finalVerification
    · rw [same verifying]
    · simp only [endEffects, verifying, if_false]

/-- **The outside effects of a task are those of its end.** Before and after it there are none, and
no status is ever written for an empty list of partitions. -/
theorem effects_of_calls (name : String) (table : Table) (config : TableConfig)
    (store : Option StoreRef) (failureStatus : Status) (actions : List Action)
    (calls : List Call) :
    let task := (create name table config store failureStatus).addActions actions
    ((task.after calls).progress.isTerminal = false ∧ task.effects calls = [] ∨
      ∃ before action ending later, calls = before ++ .report action ending :: later ∧
        (task.after before).progress.isTerminal = false ∧ ending.isTerminal = true ∧
        (task.after (before ++ [.report action ending])).progress = ending ∧
        (task.after calls).progress = ending ∧
        task.effects calls = task.endEffects ((before.filterMap Call.listener?).getLast?.getD none)
          (before.filterMap Call.division?).getLast? action ending) ∧
      (∀ store database name partitions status,
        .write store (.status database name partitions status) ∈ task.effects calls →
          partitions ≠ []) ∧
      ∀ {σ : Type} (backend : Backend σ) (state : σ),
        (task.live backend calls state).1.filterMap Event.effect? =
            (task.effects calls).filter Effect.isSeen ∧
          (task.live backend calls state).2 =
            (task.effects calls).foldl (Effect.apply backend) state := by
  intro task
  have fresh : task.Fresh := (fresh_create name table config store failureStatus).addActions actions
  have going : task.progress.isTerminal = false := by rw [fresh.progress]; rfl
  refine ⟨?_, ?_, fun backend state => task.live_effects backend calls state⟩
  · refine (effects_cases fresh.judged going calls).imp_right ?_
    rintro ⟨before, action, ending, later, same, goes, ended, last, still, effects⟩
    refine ⟨before, action, ending, later, same, goes, ended, last, still, effects.trans ?_⟩
    rw [listener_after, show task.listener = none from listener_addActions _ actions]
    refine endEffects_congr _ _ fun verifying => ?_
    rw [after_append] at last
    obtain ⟨now, found, -⟩ := (reported_of_ends goes (last ▸ ended)).1
    have has : task.has .finalVerification = true := by
      rw [← (task.after_sameKind before).has, has_eq, ← verifying, found]
      rfl
    rw [validation_after fresh.wellKept has, fresh.validation, Option.or_none]
  · intro store database name partitions status member
    rcases effects_cases fresh.judged going calls with ⟨-, unchanged⟩ |
      ⟨_, _, _, _, _, _, _, _, _, effects⟩
    · rw [unchanged] at member
      cases member
    · exact ne_nil_of_mem_endEffects (effects ▸ member)

end Task

end TableMigration
