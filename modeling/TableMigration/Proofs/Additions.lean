/-
**Actions that are added late.**

* `Mutation` — whatever can be done to a task from outside: a call, or the addition of an action.
  `Task.mutated` is the task after some mutations.
* An action is added whatever has become of it so far, and whatever has become of the task. So it
  depends on the additions whether the end of an action is an end for good (`Task.EndsForGood`) and
  whether the success of a task covers all its actions (`Task.SucceedsWhole`).
* `Task.keeps_ends_iff` — both hold iff no action is added again that has come to its end, and none
  is added to a task that has succeeded.
-/

import TableMigration.Proofs.Calls

namespace TableMigration

/-! ### Mutations -/

/-- Something that is done to a task. -/
inductive Mutation where
  /-- Add an action that is new, also in place of one that is there. -/
  | add (action : Action)
  /-- Call the task for something. -/
  | call (call : Call)

namespace Task

/-- The task after a mutation. -/
def mutate (task : Task) : Mutation → Task
  | .add action => task.addAction action
  | .call call => (task.call call).task

/-- The task after some mutations. -/
def mutated (task : Task) (mutations : List Mutation) : Task :=
  mutations.foldl mutate task

/-- Whether an action that has come to its end during some mutations keeps its progress from then
on, and is not ready again. -/
def EndsForGood (task : Task) (mutations : List Mutation) : Prop :=
  ∀ early between, early ++ between <+: mutations → ∀ action progress,
    (task.mutated early).actionProgress action = some progress → progress.isTerminal = true →
    (task.mutated (early ++ between)).actionProgress action = some progress ∧
      (task.mutated (early ++ between)).isReady action = false

/-- Whether all actions of a task have succeeded whenever it has succeeded itself. -/
def SucceedsWhole (task : Task) (mutations : List Mutation) : Prop :=
  ∀ early, early <+: mutations → (task.mutated early).progress = .succeeded →
    ∀ action progress, (task.mutated early).actionProgress action = some progress →
      progress = .succeeded

variable {task : Task} {mutations : List Mutation} {action other : Action} {progress : Progress}

theorem mutated_append (task : Task) (mutations : List Mutation) (mutation : Mutation) :
    task.mutated (mutations ++ [mutation]) = (task.mutated mutations).mutate mutation :=
  List.foldl_append ..

/-- An action that is added is new, and no other action changes. -/
theorem actionProgress_addAction (task : Task) (action other : Action) :
    (task.addAction action).actionProgress other =
      if other = action then some .new else task.actionProgress other := by
  have new : (Record.fresh action).progress = .new := by cases action <;> rfl
  exact (actionProgress_setRecord _).trans (by rw [new])

/-! ### Ends for good -/

/-- No call moves an action that has come to its end. -/
theorem actionProgress_call_of_ended (call : Call)
    (found : task.actionProgress action = some progress) (ended : progress.isTerminal = true) :
    (task.call call).task.actionProgress action = some progress := by
  rw [actionProgress_call, found, Option.map_some]
  unfold Call.stands
  split
  · rw [if_pos ended]
  · rfl

theorem isReady_of_ended (found : task.actionProgress action = some progress)
    (ended : progress.isTerminal = true) : task.isReady action = false := by
  refine Bool.eq_false_iff.mpr fun ready => ?_
  rw [(isReady_iff.mp ready).1] at found
  cases found
  cases ended

/-- **The end of an action is for good iff no action is added again after its end.** -/
theorem endsForGood_iff (task : Task) (mutations : List Mutation) :
    task.EndsForGood mutations ↔ ∀ early action progress, early ++ [.add action] <+: mutations →
      (task.mutated early).actionProgress action = some progress → progress.isTerminal = false := by
  constructor
  · intro forGood early action progress within found
    refine Bool.eq_false_iff.mpr fun ended => ?_
    obtain ⟨kept, _⟩ := forGood early _ within action progress found ended
    rw [mutated_append, mutate, actionProgress_addAction, if_pos rfl] at kept
    cases kept
    cases ended
  · intro careful early between within action progress found ended
    suffices kept : (task.mutated (early ++ between)).actionProgress action = some progress from
      ⟨kept, isReady_of_ended kept ended⟩
    induction between using List.reverseRecOn with
    | nil =>
      rw [List.append_nil]
      exact found
    | append_singleton between mutation hyp =>
      rw [← List.append_assoc] at within ⊢
      have kept := hyp ((List.prefix_append _ _).trans within)
      rw [mutated_append]
      cases mutation with
      | call call => exact actionProgress_call_of_ended call kept ended
      | add other =>
        rw [mutate, actionProgress_addAction]
        split
        · rename_i same
          subst same
          rw [careful _ _ progress within kept] at ended
          cases ended
        · exact kept

/-! ### The success of a task -/

/-- A call that makes a task succeed finds that all its actions have. -/
theorem succeeded_of_call {call : Call} (going : task.progress ≠ .succeeded)
    (done : (task.call call).task.progress = .succeeded)
    (found : (task.call call).task.actionProgress action = some progress) :
    progress = .succeeded := by
  cases call with
  | divide | count | listen =>
    exact absurd ((call_of_silent fun _ => rfl).1.symm.trans done) going
  | report other reported =>
    have done : (task.update other reported).task.progress = .succeeded := done
    have ended : task.progress.isTerminal = false := by
      refine Bool.eq_false_iff.mpr fun ended => going ?_
      rw [← progress_update_of_ended ended, done]
    by_cases ignored : ¬ task.Takes other reported
    · rw [update_of_not_takes ignored] at done
      exact absurd done going
    have taken := not_not.mp ignored
    cases reported with
    | new =>
      rw [progress_update_new] at done
      exact absurd done going
    | running =>
      rw [progress_update_running taken ended] at done
      cases done
    | failed =>
      rw [progress_update_failed taken ended] at done
      cases done
    | succeeded =>
      rw [progress_update_succeeded taken ended] at done
      split at done
      · rename_i mark
        exact watermark_eq_none.mp (Option.isNone_iff_eq_none.mp mark) action progress found
      · exact absurd done going

/-- **The success of a task covers all its actions iff none is added after it.** -/
theorem succeedsWhole_iff (going : task.progress ≠ .succeeded) (mutations : List Mutation) :
    task.SucceedsWhole mutations ↔ ∀ early action, early ++ [.add action] <+: mutations →
      (task.mutated early).progress ≠ .succeeded := by
  constructor
  · intro whole early action within done
    have new : (task.mutated (early ++ [.add action])).actionProgress action = some .new := by
      rw [mutated_append, mutate, actionProgress_addAction, if_pos rfl]
    have done : (task.mutated (early ++ [.add action])).progress = .succeeded := by
      rw [mutated_append]
      exact done
    cases whole _ within done action .new new
  · intro careful early within
    induction early using List.reverseRecOn with
    | nil => exact fun done => absurd done going
    | append_singleton early mutation hyp =>
      intro done action progress found
      have whole := hyp ((List.prefix_append _ _).trans within)
      rw [mutated_append] at done found
      cases mutation with
      | add other => exact absurd done (careful early other within)
      | call call =>
        by_cases before : (task.mutated early).progress = .succeeded
        · have found : ((task.mutated early).call call).task.actionProgress action =
            some progress := found
          rw [actionProgress_call, Option.map_eq_some_iff] at found
          obtain ⟨now, known, stands⟩ := found
          rw [whole before action now known] at stands
          unfold Call.stands at stands
          split at stands <;> exact stands.symm
        · exact succeeded_of_call before done found

/-! ### What is promised of a task -/

/-- **What has ended stays so iff nothing is added to it.** Through some mutations of a task that was
created, the end of every action is for good and the success of the task covers all actions iff no
action is added again after its end, and none is added after the success of the task. -/
theorem keeps_ends_iff (name : String) (table : Table) (config : TableConfig)
    (store : Option StoreRef) (failureStatus : Status) (mutations : List Mutation) :
    let task := create name table config store failureStatus
    task.EndsForGood mutations ∧ task.SucceedsWhole mutations ↔
      ∀ early action, early ++ [.add action] <+: mutations →
        (∀ progress, (task.mutated early).actionProgress action = some progress →
          progress.isTerminal = false) ∧
        (task.mutated early).progress ≠ .succeeded := by
  intro task
  have going : task.progress ≠ .succeeded := nofun
  rw [endsForGood_iff, succeedsWhole_iff going]
  constructor
  · rintro ⟨again, late⟩ early action within
    exact ⟨fun progress => again early action progress within, late early action within⟩
  · intro careful
    exact ⟨fun early action progress within => (careful early action within).1 progress,
      fun early action within => (careful early action within).2⟩

/-- An action that is added again after the success of its task is new and ready, and the task has
succeeded all the same. -/
theorem added_again_revives :
    let task := create "t" ⟨"d", "t", [], []⟩ ⟨none⟩ none .succeeded
    let mutations : List Mutation :=
      [.add .extract, .call (.report .extract .succeeded), .add .extract]
    ((task.mutated (mutations.take 2)).actionProgress .extract = some .succeeded ∧
      (task.mutated mutations).actionProgress .extract = some .new ∧
      (task.mutated mutations).isReady .extract = true ∧
      (task.mutated mutations).progress = .succeeded) ∧
    ¬ task.EndsForGood mutations ∧ ¬ task.SucceedsWhole mutations := by
  intro task mutations
  have facts : (task.mutated (mutations.take 2)).actionProgress .extract = some .succeeded ∧
      (task.mutated mutations).actionProgress .extract = some .new ∧
      (task.mutated mutations).isReady .extract = true ∧
      (task.mutated mutations).progress = .succeeded := by decide
  obtain ⟨ended, new, ready, done⟩ := facts
  refine ⟨⟨ended, new, ready, done⟩, fun forGood => ?_, fun whole => ?_⟩
  · have kept := (forGood (mutations.take 2) [.add .extract] (List.prefix_refl _) .extract
      .succeeded ended rfl).1
    cases new.symm.trans kept
  · cases whole mutations (List.prefix_refl _) done .extract .new new

end Task

end TableMigration
