/-
**The watermark that a task keeps.**

* `Marked` — a task that keeps its watermark as a number, works it out anew when a record gets
  another progress, and from then on only compares with it: to tell whether an action is ready, to
  stop looking for further ready actions, and to tell whether it has succeeded itself.
* `Marked.Current` — the number that is kept is the one that would be worked out now.
  `Marked.step_mutate` — no mutation makes it fall behind, and none does to the task what it does
  not do to a task that keeps nothing.
* `Marked.ready_iff_cleared` — so after any mutations the actions that are found ready are the new
  ones with nothing pending below them, each once and in order; they all have one priority.
-/

import TableMigration.Proofs.Additions

namespace TableMigration

/-! ### A task with its watermark -/

/-- A task and what it keeps of its watermark. -/
structure Marked where
  task : Task
  /-- The lowest priority among the actions that have not succeeded, or `unbounded`. -/
  lowest : Nat

namespace Marked

/-- What is kept while nothing is pending: a number that no priority reaches. -/
def unbounded : Nat :=
  2147483647

/-- The priority of the first of some actions that has not succeeded. -/
def scan (task : Task) : List Action → Nat
  | [] => unbounded
  | action :: rest => if task.isPending action then action.priority else scan task rest

/-- A task whose watermark is worked out now. -/
def refresh (task : Task) : Marked :=
  ⟨task, scan task task.actions⟩

/-- A task without actions. -/
def create (name : String) (table : Table) (config : TableConfig) (store : Option StoreRef)
    (failureStatus : Status) : Marked :=
  ⟨Task.create name table config store failureStatus, unbounded⟩

/-- Add an action that is new, also in place of one that is there. -/
def addAction (marked : Marked) (action : Action) : Marked :=
  refresh (marked.task.addAction action)

/-- Whether an action can be dispatched now. -/
def isReady (marked : Marked) (action : Action) : Bool :=
  marked.task.actionProgress action == some .new && decide (action.priority ≤ marked.lowest)

/-- The ready ones among some actions, up to the first one above the watermark. -/
def gather (marked : Marked) : List Action → List Action
  | [] => []
  | action :: rest =>
    if marked.lowest < action.priority then []
    else if marked.isReady action then action :: marked.gather rest
    else marked.gather rest

/-- The actions that can be dispatched now, in order. -/
def readyActions (marked : Marked) : List Action :=
  marked.gather marked.task.actions

/-- The progress of the task after one of its actions got a progress. -/
def progressAfter (marked : Marked) (reported : Progress) : Progress :=
  if marked.task.progress.isTerminal then marked.task.progress
  else match reported with
    | .running => .running
    | .failed => .failed
    | .succeeded => if marked.lowest = unbounded then .succeeded else marked.task.progress
    | .new => marked.task.progress

/-- Take the report of an action. The watermark is worked out after the record has moved and before
the progress of the task follows. -/
def update (marked : Marked) (action : Action) (reported : Progress) : Marked :=
  match marked.task.records action with
  | none => marked
  | some record =>
    if record.progress = reported ∨ record.progress.isTerminal then marked
    else
      let moved := refresh (marked.task.setRecord action { record with progress := reported })
      { moved with task := { moved.task with progress := moved.progressAfter reported } }

/-- The task after a call. What is kept of findings and listeners does not touch the watermark. -/
def call (marked : Marked) : Call → Marked
  | .report action reported => marked.update action reported
  | .divide validation =>
    { marked with task := (marked.task.keepValidation validation).getD marked.task }
  | .count action table counts =>
    { marked with task := (marked.task.keepCounts action table counts).getD marked.task }
  | .listen listener => { marked with task := { marked.task with listener := listener } }

/-- The task after a mutation. -/
def mutate (marked : Marked) : Mutation → Marked
  | .add action => marked.addAction action
  | .call call => marked.call call

/-- The task after some mutations. -/
def mutated (marked : Marked) (mutations : List Mutation) : Marked :=
  mutations.foldl mutate marked

/-- Whether the watermark that is kept is the one of the task. -/
def Current (marked : Marked) : Prop :=
  marked.lowest = marked.task.watermark.getD unbounded

variable {marked : Marked} {task : Task} {action : Action}

/-! ### Working the watermark out -/

theorem priority_lt_unbounded (action : Action) : action.priority < unbounded := by
  cases action <;> decide

theorem scan_eq (task : Task) (actions : List Action) :
    scan task actions = ((actions.find? task.isPending).map Action.priority).getD unbounded := by
  induction actions with
  | nil => rfl
  | cons action rest hyp =>
    unfold scan
    split
    · rename_i pending
      rw [List.find?_cons_of_pos pending]
      rfl
    · rename_i done
      rw [List.find?_cons_of_neg done, hyp]

theorem current_refresh (task : Task) : (refresh task).Current :=
  scan_eq task task.actions

/-- Nothing is above the number that is kept iff nothing is pending. -/
theorem Current.unbounded_iff (current : marked.Current) :
    marked.lowest = unbounded ↔ marked.task.watermark.isNone = true := by
  unfold Current at current
  rw [current]
  cases mark : marked.task.watermark with
  | none => exact ⟨fun _ => rfl, fun _ => rfl⟩
  | some lowest =>
    obtain ⟨⟨pending, _, rfl⟩, _⟩ := Task.watermark_eq_some mark
    exact ⟨fun equal => absurd equal (Nat.ne_of_lt (priority_lt_unbounded pending)), nofun⟩

theorem Current.reaches_iff (current : marked.Current) (action : Action) :
    action.priority ≤ marked.lowest ↔ marked.task.reaches action = true := by
  unfold Current at current
  unfold Task.reaches
  rw [current]
  cases marked.task.watermark with
  | none => exact ⟨fun _ => rfl, fun _ => Nat.le_of_lt (priority_lt_unbounded action)⟩
  | some lowest => exact decide_eq_true_iff.symm

theorem Current.progressAfter (current : marked.Current) (reported : Progress) :
    marked.progressAfter reported = marked.task.progressAfter reported := by
  unfold Marked.progressAfter Task.progressAfter
  split
  · rfl
  · cases reported with
    | succeeded => exact if_congr current.unbounded_iff rfl rfl
    | new | running | failed => rfl

/-- The watermark follows from the progress of the actions alone. -/
theorem watermark_congr {first second : Task}
    (same : ∀ action, first.actionProgress action = second.actionProgress action) :
    first.watermark = second.watermark := by
  have pending : first.isPending = second.isPending :=
    funext fun action => by rw [Task.isPending, Task.isPending, same]
  have actions : first.actions = second.actions := by
    unfold Task.actions
    congr 1
    exact funext fun action => by rw [Task.has_eq, Task.has_eq, same]
  rw [Task.watermark, Task.watermark, pending, actions]

/-! ### One mutation -/

/-- A setter leaves the progress of all actions as it is, and the watermark with it. -/
theorem Current.of_same (current : marked.Current)
    (same : ∀ action, task.actionProgress action = marked.task.actionProgress action) :
    Current { marked with task := task } := by
  unfold Current
  rw [watermark_congr same]
  exact current

theorem step_update (current : marked.Current) (action : Action) (reported : Progress) :
    (marked.update action reported).task = (marked.task.update action reported).task ∧
      (marked.update action reported).Current := by
  unfold update Task.update
  cases marked.task.records action with
  | none => exact ⟨rfl, current⟩
  | some record =>
    dsimp only
    split
    · exact ⟨rfl, current⟩
    · have fresh := current_refresh (marked.task.setRecord action
        { record with progress := reported })
      refine ⟨?_, fresh⟩
      rw [fresh.progressAfter]
      split
      · rename_i same
        exact congrArg (fun progress => { marked.task.setRecord action _ with progress }) same
      · rfl

/-- **A mutation leaves the watermark current, and the task as it would be without it.** The cases
are the writers of a task: those that move a record work the watermark out, the others move none. -/
theorem step_mutate (current : marked.Current) (mutation : Mutation) :
    (marked.mutate mutation).task = marked.task.mutate mutation ∧
      (marked.mutate mutation).Current := by
  cases mutation with
  | add action => exact ⟨rfl, current_refresh _⟩
  | call call =>
    cases call with
    | report action reported => exact step_update current action reported
    | divide validation =>
      have silent : ∀ action, Call.reported? action (.divide validation) = none := fun _ => rfl
      exact ⟨rfl, current.of_same (Task.call_of_silent silent).2⟩
    | count action table counts =>
      have silent : ∀ other, Call.reported? other (.count action table counts) = none :=
        fun _ => rfl
      exact ⟨rfl, current.of_same (Task.call_of_silent silent).2⟩
    | listen listener => exact ⟨rfl, current.of_same fun _ => rfl⟩

theorem mutated_task (current : marked.Current) (mutations : List Mutation) :
    (marked.mutated mutations).task = marked.task.mutated mutations ∧
      (marked.mutated mutations).Current := by
  induction mutations generalizing marked with
  | nil => exact ⟨rfl, current⟩
  | cons mutation rest hyp =>
    obtain ⟨same, kept⟩ := step_mutate current mutation
    obtain ⟨task, last⟩ := hyp kept
    exact ⟨task.trans (congrArg (Task.mutated · rest) same), last⟩

theorem current_create (name : String) (table : Table) (config : TableConfig)
    (store : Option StoreRef) (failureStatus : Status) :
    (create name table config store failureStatus).Current :=
  rfl

/-! ### What is found ready -/

theorem Current.isReady_iff (current : marked.Current) : marked.isReady action = true ↔
    marked.task.actionProgress action = some .new ∧ marked.task.Cleared action := by
  unfold isReady
  rw [Bool.and_eq_true, beq_iff_eq, decide_eq_true_iff, current.reaches_iff, Task.reaches_iff]

/-- Behind an action above the watermark no action is ready, so that nothing is lost by stopping
there. -/
theorem gather_eq_filter {actions : List Action}
    (sorted : actions.Pairwise fun first second => first.priority ≤ second.priority) :
    marked.gather actions = actions.filter marked.isReady := by
  have above : ∀ action, marked.lowest < action.priority → ¬ marked.isReady action = true := by
    intro action above ready
    unfold isReady at ready
    rw [Bool.and_eq_true, decide_eq_true_iff] at ready
    exact absurd ready.2 (Nat.not_le_of_lt above)
  induction actions with
  | nil => rfl
  | cons action rest hyp =>
    unfold gather
    split
    · rename_i stop
      refine (List.filter_eq_nil_iff.mpr fun later member => above later ?_).symm
      rcases List.mem_cons.mp member with rfl | behind
      · exact stop
      · exact Nat.lt_of_lt_of_le stop (List.rel_of_pairwise_cons sorted behind)
    · rw [hyp sorted.of_cons, List.filter_cons]

/-- Of two ready actions none is below the other, since the lower one would be pending. -/
theorem Current.priority_eq (current : marked.Current) {first second : Action}
    (left : marked.isReady first = true) (right : marked.isReady second = true) :
    first.priority = second.priority := by
  have notBelow : ∀ {lower upper : Action}, marked.isReady lower = true →
      marked.isReady upper = true → ¬ lower.priority < upper.priority := by
    intro lower upper new ready below
    have pending := (current.isReady_iff.mp new).1
    cases (current.isReady_iff.mp ready).2 lower below .new pending
  have := notBelow left right
  have := notBelow right left
  omega

/-- **The watermark says which actions may start.** After any mutations of a task that was created, a
task that keeps its watermark is the one that keeps none; an action is found ready iff it is there,
new, and every action of a lower priority that is there has succeeded; the ready actions are listed
without a gap, each once, by priority and then by their place; and they have one priority. -/
theorem ready_iff_cleared (name : String) (table : Table) (config : TableConfig)
    (store : Option StoreRef) (failureStatus : Status) (mutations : List Mutation) :
    let marked := (create name table config store failureStatus).mutated mutations
    marked.task = (Task.create name table config store failureStatus).mutated mutations ∧
    (∀ action, marked.isReady action = true ↔ marked.task.actionProgress action = some .new ∧
      ∀ lower, lower.priority < action.priority → ∀ progress,
        marked.task.actionProgress lower = some progress → progress = .succeeded) ∧
    (∀ action, action ∈ marked.readyActions ↔ marked.isReady action = true) ∧
    marked.readyActions.Nodup ∧
    (marked.readyActions.Pairwise fun first second => first.before second = true) ∧
    ∀ first second, first ∈ marked.readyActions → second ∈ marked.readyActions →
      first.priority = second.priority := by
  intro marked
  obtain ⟨same, current⟩ : marked.task = _ ∧ marked.Current :=
    mutated_task (current_create name table config store failureStatus) mutations
  have listed : marked.readyActions = marked.task.actions.filter marked.isReady :=
    gather_eq_filter marked.task.actions_pairwise
  have member : ∀ action, action ∈ marked.readyActions ↔ marked.isReady action = true := by
    intro action
    rw [listed, List.mem_filter, Task.mem_actions, Task.has_eq]
    refine ⟨And.right, fun ready => ⟨?_, ready⟩⟩
    rw [(current.isReady_iff.mp ready).1]
    rfl
  refine ⟨same, fun action => current.isReady_iff, member, ?_, ?_, fun first second left right => ?_⟩
  · rw [listed]
    exact marked.task.actions_nodup.sublist List.filter_sublist
  · rw [listed]
    exact Action.all_pairwise_before.sublist (List.filter_sublist.trans List.filter_sublist)
  · exact current.priority_eq ((member first).mp left) ((member second).mp right)

/-- The two validations of a task are ready together, and the final one only behind them. -/
example :
    let marked := (create "t" ⟨"d", "t", [], []⟩ ⟨none⟩ none .succeeded).mutated
      [.add .finalVerification, .add .destinationValidate, .add .extract, .add .sourceValidate,
        .call (.report .extract .succeeded)]
    marked.readyActions = [.sourceValidate, .destinationValidate] := by decide

end Marked

end TableMigration
