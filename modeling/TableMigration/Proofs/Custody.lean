/-
**Who has an action.**

* From the moment it is collected until its result is reported, an action of a task is an `Item`,
  and its `Station` says how far it has come: it is due to be handed out, offered to its pool, refused
  by it, waiting in it, or executed with counts, a division or a report still to be passed on.
* A `Custody` is what is left of a ledger when only the tasks, the items and the tasks to be
  collected from are kept. Who listens to a task is forgotten (`Task.deaf`).
* `Custody.Step.of_dispatched`, `Custody.Step.of_executed` — the one step that hands out an action,
  and the one that has it executed.
* `Ledger.Step.custody` — every step of an orderly ledger is a step of its custody.
-/

import TableMigration.Proofs.Agenda

namespace TableMigration

/-! ### Tasks without listeners -/

/-- A task to which nobody listens. -/
def Task.deaf (task : Task) : Task :=
  { task with listener := none }

namespace Task

variable {task : Task} {action : Action}

theorem deaf_update (task : Task) (action : Action) (reported : Progress) :
    (task.update action reported).task.deaf = (task.deaf.update action reported).task := by
  have same : task.deaf.records action = task.records action := rfl
  unfold update
  rw [same]
  cases task.records action with
  | none => rfl
  | some record =>
    dsimp only
    split
    · rfl
    · have after : progressAfter (task.deaf.setRecord action { record with progress := reported })
          reported = progressAfter (task.setRecord action { record with progress := reported })
            reported := rfl
      rw [after]
      show _ = (if _ = task.progress then _ else _ : Update).task
      split <;> rfl

theorem deaf_withCounts (task : Task) (action : Action) (execution : Execution) :
    (task.withCounts action execution).deaf = task.deaf.withCounts action execution := by
  have same : task.deaf.records action = task.records action := rfl
  unfold withCounts
  cases execution.counts with
  | none => rfl
  | some counts =>
    simp only [Option.bind_some, keepCounts, same]
    rcases task.records action with _ | ⟨_, _ | _⟩ <;> rfl

theorem deaf_withValidation (task : Task) (execution : Execution) :
    (task.withValidation execution).deaf = task.deaf.withValidation execution := by
  have same : task.deaf.records .finalVerification = task.records .finalVerification := rfl
  unfold withValidation
  cases execution.validation with
  | none => rfl
  | some validation =>
    simp only [Option.bind_some, keepValidation, same]
    rcases task.records .finalVerification with _ | ⟨_, _ | _⟩ <;> rfl

/-- A change of listeners goes unnoticed. -/
theorem deaf_modify {change : Task → Task} (same : ∀ task, (change task).deaf = task.deaf)
    (listed : List Nat) (tasks : List Task) (other : Nat) :
    ((listed.foldl (fun tasks number => tasks.modify number change) tasks)[other]?).map deaf =
      (tasks[other]?).map deaf := by
  induction listed generalizing tasks with
  | nil => rfl
  | cons number rest hyp =>
    rw [List.foldl_cons, hyp, List.getElem?_modify]
    cases tasks[other]? with
    | none => rfl
    | some task =>
      show some (deaf (if number = other then change task else task)) = some task.deaf
      split
      · rw [same]
      · rfl

/-- Nor does it matter who listens no more. -/
theorem deaf_unlisten (listed : List Nat) (tasks : List Task) (number : Nat) :
    ((listed.foldl unlistenTo tasks)[number]?).map deaf = (tasks[number]?).map deaf := by
  have deafen : ∀ task : Task, ({ task with listener := none } : Task).deaf = task.deaf :=
    fun _ => rfl
  exact deaf_modify deafen listed tasks number

end Task

/-! ### Items -/

/-- How far an action has come on its way. -/
inductive Station where
  /-- It is to be handed out. -/
  | due
  /-- It is marked as running and to be given to its pool. -/
  | offered
  /-- Its pool has refused it, and the task is to be told. -/
  | refused
  /-- It waits to be executed. -/
  | queued
  /-- It was executed, and its counts are to be kept. -/
  | counting (execution : Execution)
  /-- The division of the partitions is to be kept. -/
  | dividing (execution : Execution)
  /-- The task is to be told the result. -/
  | reporting (execution : Execution)
  deriving DecidableEq

/-- An action on its way. -/
structure Item where
  task : Nat
  action : Action
  station : Station
  deriving DecidableEq

/-- Which action of which task an item is. -/
def Item.key (item : Item) : Nat × Action :=
  (item.task, item.action)

/-- The action that a duty brings on its way. -/
def Duty.item? : Duty → Option Item
  | .dispatch task action => some ⟨task, action, .due⟩
  | .submit task action => some ⟨task, action, .offered⟩
  | .refuse task action => some ⟨task, action, .refused⟩
  | _ => none

/-- The action that a job brings on its way. -/
def Job.item? (job : Job) : Option Item :=
  match job.stage with
  | .call => some ⟨job.task, job.action, .queued⟩
  | .keepCounts execution => some ⟨job.task, job.action, .counting execution⟩
  | .keepValidation execution => some ⟨job.task, job.action, .dividing execution⟩
  | .report execution => some ⟨job.task, job.action, .reporting execution⟩
  | _ => none

/-- The task from which a duty collects. -/
def Duty.looked? : Duty → Option Nat
  | .collect task => some task
  | _ => none

/-- The actions on their way. -/
def Ledger.items (agenda : List Duty) (jobs : Multiset Job) : Multiset Item :=
  (agenda.filterMap Duty.item? : Multiset Item) + jobs.filterMap Job.item?

namespace Ledger

variable {agenda rest : List Duty} {jobs : Multiset Job} {duty : Duty} {job : Job} {item : Item}

theorem items_append (duties : List Duty) :
    items (duties ++ rest) jobs = (duties.filterMap Duty.item? : Multiset Item) + items rest jobs := by
  unfold items
  rw [List.filterMap_append, ← Multiset.coe_add, Multiset.add_assoc]

theorem items_cons_none (away : duty.item? = none) : items (duty :: rest) jobs = items rest jobs := by
  unfold items
  rw [List.filterMap_cons_none away]

theorem items_cons_some (brings : duty.item? = some item) :
    items (duty :: rest) jobs = item ::ₘ items rest jobs := by
  unfold items
  rw [List.filterMap_cons_some brings, ← Multiset.cons_coe, Multiset.cons_add]

theorem items_job_none (away : job.item? = none) : items agenda (job ::ₘ jobs) = items agenda jobs := by
  unfold items
  rw [Multiset.filterMap_cons_none _ _ away]

theorem items_job_some (brings : job.item? = some item) :
    items agenda (job ::ₘ jobs) = item ::ₘ items agenda jobs := by
  unfold items
  rw [Multiset.filterMap_cons_some _ _ _ brings, Multiset.add_cons]

/-- An item comes from a duty or from a job. -/
theorem mem_items : item ∈ items agenda jobs ↔
    (∃ duty ∈ agenda, duty.item? = some item) ∨ ∃ job ∈ jobs, job.item? = some item := by
  unfold items
  rw [Multiset.mem_add, Multiset.mem_coe, List.mem_filterMap, Multiset.mem_filterMap]

end Ledger

/-! ### Custody -/

/-- The tasks, and the actions on their way. -/
@[ext] structure Custody where
  tasks : Nat → Option Task
  /-- The tasks to collect from. -/
  looked : List Nat
  items : Multiset Item

/-- The custody of a ledger. -/
def Ledger.custody (ledger : Ledger) : Custody where
  tasks number := (ledger.tasks[number]?).map Task.deaf
  looked := ledger.agenda.filterMap Duty.looked?
  items := Ledger.items ledger.agenda ledger.jobs

namespace Custody

/-- Whether a task has come to its end. -/
def Ended (custody : Custody) (number : Nat) : Prop :=
  ∀ task, custody.tasks number = some task → task.progress.isTerminal = true

/-- Whether no action is to be handed out. -/
def Idle (custody : Custody) : Prop :=
  ∀ item ∈ custody.items, item.station ≠ .due

/-- Replace a task. -/
def setTask (custody : Custody) (number : Nat) (task : Task) : Custody :=
  { custody with
    tasks := fun other => if other = number then some task else custody.tasks other }

end Custody

/-- How an action goes on without a change of its task. -/
inductive Station.Passes (answered : Execution → Prop) (number : Nat) (action : Action) :
    Station → List Act → Station → Prop
  | accept : Passes answered number action .offered [] .queued
  | turnAway : Passes answered number action .offered [.refused number action] .refused
  | execute {execution} (answer : answered execution) :
      Passes answered number action .queued [.executed number action execution] (.counting execution)

/-- The progress that is to be reported for an action. -/
def Station.result? : Station → Option Progress
  | .refused => some .failed
  | .reporting execution => some execution.progress
  | _ => none

/-- **What one move can do to the actions on their way.** -/
inductive Custody.Step (answers : Nat → Task → Action → Execution → Prop) (custody : Custody) :
    List Act → Custody → Prop
  | quiet : Step answers custody [] custody
  | findEnded (numbers : List Nat) (ended : ∀ number ∈ numbers, custody.Ended number)
      (idle : custody.Idle) (unlooked : custody.looked = []) :
      Step answers custody (numbers.map .foundEnded) custody
  | look {number} (going : ¬ custody.Ended number) (idle : custody.Idle)
      (unlooked : custody.looked = []) :
      Step answers custody [] { custody with looked := [number] }
  | collect {number rest task} (head : custody.looked = number :: rest)
      (found : custody.tasks number = some task) (idle : custody.Idle) :
      Step answers custody []
        { custody with
          looked := rest
          items := (task.readyActions.map (Item.mk number · .due) : List Item) + custody.items }
  | miss {number rest} (head : custody.looked = number :: rest)
      (absent : custody.tasks number = none) :
      Step answers custody [] { custody with looked := rest }
  | lose {lost others} (held : custody.items = lost ::ₘ others)
      (absent : custody.tasks lost.task = none) :
      Step answers custody [] { custody with items := others }
  | dispatch {number action task others} (held : custody.items = ⟨number, action, .due⟩ ::ₘ others)
      (found : custody.tasks number = some task) :
      Step answers custody [.dispatched number action]
        { custody.setTask number (task.update action .running).task with
          items := ⟨number, action, .offered⟩ ::ₘ others }
  | pass {number action station acts later task others}
      (held : custody.items = ⟨number, action, station⟩ ::ₘ others)
      (found : custody.tasks number = some task)
      (passes : station.Passes (answers number task action) number action acts later) :
      Step answers custody acts
        { custody with items := ⟨number, action, later⟩ ::ₘ others }
  | keepCounts {number action execution task others}
      (held : custody.items = ⟨number, action, .counting execution⟩ ::ₘ others)
      (found : custody.tasks number = some task) :
      Step answers custody []
        { custody.setTask number (task.withCounts action execution) with
          items := ⟨number, action, .dividing execution⟩ ::ₘ others }
  | keepValidation {number action execution task others}
      (held : custody.items = ⟨number, action, .dividing execution⟩ ::ₘ others)
      (found : custody.tasks number = some task) :
      Step answers custody []
        { custody.setTask number (task.withValidation execution) with
          items := ⟨number, action, .reporting execution⟩ ::ₘ others }
  | settle {number action station result task others}
      (held : custody.items = ⟨number, action, station⟩ ::ₘ others)
      (found : custody.tasks number = some task) (reported : station.result? = some result) :
      Step answers custody []
        { custody.setTask number (task.update action result).task with items := others }

/-! ### What a step tells -/

/-- An action that is handed out was due, and its task begins it. -/
theorem Custody.Step.of_dispatched {answers : Nat → Task → Action → Execution → Prop}
    {custody next : Custody} {new : List Act} {number : Nat} {action : Action}
    (step : custody.Step answers new next) (member : .dispatched number action ∈ new) :
    new = [.dispatched number action] ∧ ∃ task others,
      custody.items = ⟨number, action, .due⟩ ::ₘ others ∧ custody.tasks number = some task ∧
        next = { custody.setTask number (task.update action .running).task with
          items := ⟨number, action, .offered⟩ ::ₘ others } := by
  cases step with
  | dispatch held found =>
    cases List.mem_singleton.mp member
    exact ⟨rfl, _, _, held, found, rfl⟩
  | findEnded =>
    obtain ⟨_, _, same⟩ := List.mem_map.mp member
    cases same
  | pass held found passes =>
    cases passes with
    | accept => cases member
    | turnAway | execute => cases List.mem_singleton.mp member
  | _ => cases member

/-- An action that is executed was queued, and its task stays as it is. -/
theorem Custody.Step.of_executed {answers : Nat → Task → Action → Execution → Prop}
    {custody next : Custody} {new : List Act} {number : Nat} {action : Action}
    {execution : Execution} (step : custody.Step answers new next)
    (member : .executed number action execution ∈ new) :
    ∃ task others, custody.items = ⟨number, action, .queued⟩ ::ₘ others ∧
      custody.tasks number = some task ∧ answers number task action execution ∧
        next = { custody with items := ⟨number, action, .counting execution⟩ ::ₘ others } := by
  cases step with
  | dispatch => cases List.mem_singleton.mp member
  | findEnded =>
    obtain ⟨_, _, same⟩ := List.mem_map.mp member
    cases same
  | pass held found passes =>
    cases passes with
    | accept => cases member
    | turnAway => cases List.mem_singleton.mp member
    | execute answer =>
      cases List.mem_singleton.mp member
      exact ⟨_, _, held, found, answer, rfl⟩
  | _ => cases member

/-! ### Steps of a ledger -/

/-- Whether a duty has nothing to do with an action on its way. -/
def Duty.Plain (duty : Duty) : Prop :=
  duty.item? = none ∧ duty.looked? = none

theorem Duty.item?_of_rank {duty : Duty} (late : 1 ≤ duty.rank) : duty.item? = none := by
  cases duty <;> first | rfl | exact absurd late (Nat.not_succ_le_zero 0)

theorem Duty.plain_of_rank {duty : Duty} (late : 2 ≤ duty.rank) : duty.Plain := by
  refine ⟨item?_of_rank (Nat.le_of_succ_le late), ?_⟩
  cases duty <;> first | rfl | exact absurd late (Nat.not_succ_le_self 1)

theorem Duty.plain_follow {task : Nat} {changed : Option Progress} {deliveries : List Delivery}
    {duty : Duty} (member : duty ∈ follow task changed deliveries) : duty.Plain := by
  rcases mem_follow_cases member with ⟨_, _, rfl⟩ | ⟨_, _, rfl⟩ <;> exact ⟨rfl, rfl⟩

theorem Duty.plain_of_isAside {duty : Duty} (isAside : duty.isAside = true) : duty.Plain := by
  cases duty <;> first | exact ⟨rfl, rfl⟩ | cases isAside

namespace Ledger

variable {ledger next : Ledger} {head : Duty} {rest duties : List Duty} {jobs : Multiset Job}

theorem items_plain (plain : ∀ duty ∈ duties, duty.Plain) :
    items (duties ++ rest) jobs = items rest jobs := by
  rw [items_append, List.filterMap_eq_nil_iff.mpr fun duty member => (plain duty member).1]
  exact Multiset.zero_add _

theorem looked_plain (plain : ∀ duty ∈ duties, duty.Plain) :
    (duties ++ rest).filterMap Duty.looked? = rest.filterMap Duty.looked? := by
  rw [List.filterMap_append, List.filterMap_eq_nil_iff.mpr fun duty member => (plain duty member).2]
  rfl

/-- Plain duties in place of a plain one change nothing. -/
theorem custody_eq (agenda : ledger.agenda = head :: rest) (plain : head.Plain)
    (new : ∀ duty ∈ duties, duty.Plain) (after : next.agenda = duties ++ rest)
    (tasks : next.tasks = ledger.tasks) (jobs : next.jobs = ledger.jobs) :
    next.custody = ledger.custody := by
  refine Custody.ext ?_ ?_ ?_
  · show (fun number => (next.tasks[number]?).map Task.deaf) = _
    rw [tasks]
    rfl
  · show next.agenda.filterMap Duty.looked? = ledger.agenda.filterMap Duty.looked?
    rw [after, agenda, looked_plain new, List.filterMap_cons_none plain.2]
  · show items next.agenda next.jobs = items ledger.agenda ledger.jobs
    rw [after, agenda, jobs, items_plain new, items_cons_none plain.1]

/-- Nothing is to be handed out while a duty of a higher rank stands in front. -/
theorem idle_of_orderly (agenda : ledger.agenda = head :: rest)
    (orderly : Duty.Orderly ledger.agenda) (late : 1 ≤ head.rank) : ledger.custody.Idle := by
  intro item member due
  rcases mem_items.mp member with ⟨duty, planned, bring⟩ | ⟨job, _, bring⟩
  · have rank : 1 ≤ duty.rank := by
      rw [agenda] at orderly planned
      rcases List.mem_cons.mp planned with rfl | behind
      · exact late
      · exact Nat.le_trans late (orderly.behind behind)
    rw [Duty.item?_of_rank rank] at bring
    cases bring
  · obtain ⟨task, action, stage⟩ := job
    cases stage <;> cases bring <;> cases due

theorem unlooked_of_orderly (agenda : ledger.agenda = head :: rest)
    (orderly : Duty.Orderly ledger.agenda) (late : 2 ≤ head.rank) : ledger.custody.looked = [] := by
  refine List.filterMap_eq_nil_iff.mpr fun duty planned => ?_
  have rank : 2 ≤ duty.rank := by
    rw [agenda] at orderly planned
    rcases List.mem_cons.mp planned with rfl | behind
    · exact late
    · exact Nat.le_trans late (orderly.behind behind)
  exact (Duty.plain_of_rank rank).2

theorem ended_custody {number : Nat} :
    ledger.custody.Ended number ↔ Task.endedIn ledger.tasks number = true := by
  show (∀ task, (ledger.tasks[number]?).map Task.deaf = some task → _) ↔
    (ledger.tasks[number]?).all _ = true
  cases ledger.tasks[number]? with
  | none => exact ⟨fun _ => rfl, fun _ task found => nomatch found⟩
  | some task => exact ⟨fun ended => ended task.deaf rfl, fun ended _ found => by cases found; exact ended⟩

/-- A task that changes is found changed, and the others are as they were. -/
theorem custody_set {tasks : List Task} {number : Nat} {task changed heard : Task}
    (found : tasks[number]? = some task) (same : changed.deaf = heard) :
    (fun other => if other = number then some heard else (tasks[other]?).map Task.deaf) =
      fun other => ((tasks.set number changed)[other]?).map Task.deaf := by
  funext other
  obtain ⟨within, _⟩ := List.getElem?_eq_some_iff.mp found
  rw [List.getElem?_set, ← same]
  by_cases equal : other = number
  · rw [if_pos equal, if_pos equal.symm, if_pos within]
    rfl
  · rw [if_neg equal, if_neg fun equal' => equal equal'.symm]

variable {answers answers' : Nat → Task → Action → Execution → Prop} {acts : List Act}

/-- Plain duties may come and go. -/
theorem Step.custody_plain (agenda : ledger.agenda = head :: rest) (plain : head.Plain)
    (new : ∀ duty ∈ duties, duty.Plain) (after : next.agenda = duties ++ rest)
    (tasks : next.tasks = ledger.tasks) (jobs : next.jobs = ledger.jobs) :
    ledger.custody.Step answers [] next.custody := by
  rw [custody_eq agenda plain new after tasks jobs]
  exact .quiet

/-- A job that brings no action on its way may come and go. -/
theorem Step.custody_job {job : Job} {others : Multiset Job} (held : ledger.jobs = job ::ₘ others)
    (plain : job.item? = none)
    (jobs : next.jobs.filterMap Job.item? = others.filterMap Job.item?)
    (agenda : next.agenda = ledger.agenda) (tasks : next.tasks = ledger.tasks) :
    ledger.custody.Step answers [] next.custody := by
  have same : next.custody = ledger.custody := by
    refine Custody.ext ?_ ?_ ?_
    · show (fun number => (next.tasks[number]?).map Task.deaf) = _
      rw [tasks]
      rfl
    · show next.agenda.filterMap Duty.looked? = _
      rw [agenda]
      rfl
    · show _ + next.jobs.filterMap Job.item? = items ledger.agenda ledger.jobs
      rw [agenda, held, items_job_none plain, jobs]
      rfl
  rw [same]
  exact .quiet

theorem Step.custody_of_eq {custody after after' : Custody}
    (step : custody.Step answers acts after) (same : after = after') :
    custody.Step answers acts after' :=
  same ▸ step

theorem custody_of_found {number : Nat} {task : Task} (found : ledger.tasks[number]? = some task) :
    ledger.custody.tasks number = some task.deaf := by
  show Option.map _ _ = _
  rw [found]
  rfl

theorem custody_of_absent {number : Nat} (absent : ledger.tasks[number]? = none) :
    ledger.custody.tasks number = none := by
  show Option.map _ _ = _
  rw [absent]
  rfl

section Agenda

variable {number : Nat} {task : Task} {action : Action}

/-- Tasks that have ended are found so when nothing is to be handed out. -/
theorem Step.custody_ended (agenda : ledger.agenda = head :: rest) (plain : head.Plain)
    (late : 2 ≤ head.rank) (orderly : Duty.Orderly ledger.agenda) {numbers : List Nat}
    (ended : ∀ number ∈ numbers, Task.endedIn ledger.tasks number = true)
    (after : next.agenda = rest) (tasks : next.tasks = ledger.tasks)
    (jobs : next.jobs = ledger.jobs) :
    ledger.custody.Step answers (numbers.map .foundEnded) next.custody := by
  rw [custody_eq agenda plain (List.forall_mem_nil _) after tasks jobs]
  exact .findEnded numbers (fun number member => ended_custody.mpr (ended number member))
    (idle_of_orderly agenda orderly (Nat.le_of_succ_le late))
    (unlooked_of_orderly agenda orderly late)

/-- A task is looked at when nothing is to be handed out. -/
theorem Step.custody_look (agenda : ledger.agenda = .look number :: rest)
    (orderly : Duty.Orderly ledger.agenda) (going : Task.endedIn ledger.tasks number = false) :
    ledger.custody.Step answers [] { ledger with agenda := .collect number :: rest }.custody := by
  have idle := idle_of_orderly agenda orderly (Nat.le_succ 1)
  have unlooked := unlooked_of_orderly agenda orderly (Nat.le_refl 2)
  have going' : ¬ ledger.custody.Ended number := by
    rw [ended_custody, going]
    nofun
  refine custody_of_eq (.look going' idle unlooked) (Custody.ext rfl ?_ ?_)
  · have others : rest.filterMap Duty.looked? = [] := by
      rw [← unlooked]
      show _ = ledger.agenda.filterMap Duty.looked?
      rw [agenda]
      rfl
    exact congrArg (number :: ·) others.symm
  · show items ledger.agenda ledger.jobs = items (.collect number :: rest) ledger.jobs
    rw [agenda, items_cons_none rfl, items_cons_none rfl]

/-- What is ready is due as soon as its task is collected from. -/
theorem Step.custody_collect (agenda : ledger.agenda = .collect number :: rest)
    (orderly : Duty.Orderly ledger.agenda) (found : ledger.tasks[number]? = some task) :
    ledger.custody.Step answers []
      { ledger with agenda := task.readyActions.map (Duty.dispatch number) ++ rest }.custody := by
  have idle := idle_of_orderly agenda orderly (Nat.le_refl 1)
  have looked : ledger.custody.looked = number :: rest.filterMap Duty.looked? := by
    show ledger.agenda.filterMap Duty.looked? = _
    rw [agenda]
    rfl
  refine custody_of_eq (.collect looked (custody_of_found found) idle) (Custody.ext rfl ?_ ?_)
  · show _ = (task.readyActions.map (Duty.dispatch number) ++ rest).filterMap _
    rw [List.filterMap_append, List.filterMap_map]
    show _ = task.readyActions.filterMap (fun _ => none) ++ _
    rw [List.filterMap_none]
    rfl
  · show _ + items ledger.agenda ledger.jobs = items (_ ++ rest) ledger.jobs
    rw [agenda, items_append, List.filterMap_map, items_cons_none rfl]
    congr 2
    exact congrFun List.filterMap_eq_map'.symm task.readyActions

/-- Without its task, what is to be collected or handed out is lost. -/
theorem Step.custody_lost (agenda : ledger.agenda = head :: rest)
    (about : head.subject? = some number) (absent : ledger.tasks[number]? = none) :
    ledger.custody.Step answers [] { ledger with agenda := rest }.custody := by
  have absent := custody_of_absent absent
  obtain ⟨tasks, tables, _, jobs, inFlight, completions, seen, dispatched⟩ := ledger
  cases agenda
  cases head <;> cases about
  · exact custody_of_eq (.miss rfl absent) (Custody.ext rfl rfl rfl)
  all_goals exact custody_of_eq (.lose (items_cons_some rfl) absent) (Custody.ext rfl rfl rfl)

end Agenda

/-- **Every step of an orderly ledger is a step of its custody.** -/
theorem Step.custody (step : ledger.Step answers acts next)
    (allowed : ∀ number task action execution,
      answers number task action execution → answers' number task.deaf action execution)
    (orderly : Duty.Orderly ledger.agenda) :
    ledger.custody.Step answers' acts next.custody := by
  have drop : ∀ {duty rest}, ledger.agenda = duty :: rest → duty.Plain → next.agenda = rest →
      next.tasks = ledger.tasks → next.jobs = ledger.jobs →
      ledger.custody.Step answers' [] next.custody :=
    fun head plain => custody_plain head plain (List.forall_mem_nil _)
  obtain ⟨tasks, tables, agenda, jobs, inFlight, completions, seen, dispatched⟩ := ledger
  cases step with
  | beginPass head =>
    exact custody_plain head ⟨rfl, rfl⟩
      (fun _ member => Duty.plain_of_rank (Duty.le_rank_pass member)) rfl rfl rfl
  | lookEnded head ended =>
    exact custody_ended head ⟨rfl, rfl⟩ (Nat.le_refl 2) orderly
      (List.forall_mem_singleton.mpr ended) rfl rfl rfl
  | lookOn head going => exact custody_look head orderly going
  | absent head about absent => exact custody_lost head about absent
  | collect head found => exact custody_collect head orderly found
  | judge head _ =>
    exact custody_ended head ⟨rfl, rfl⟩ (Nat.le_refl 2) orderly
      (fun _ member => (List.mem_filter.mp member).2) rfl rfl rfl
  | testDone head _ =>
    exact custody_plain head ⟨rfl, rfl⟩
      (fun duty member => Duty.plain_of_rank ((Duty.rank_closing member).symm ▸ by decide))
      rfl rfl rfl
  | testStuck head _ =>
    exact custody_plain head ⟨rfl, rfl⟩
      (fun duty member => Duty.plain_of_rank ((Duty.rank_stuck member).symm ▸ by decide))
      rfl rfl rfl
  | testOn head _ | wait head =>
    exact custody_plain head ⟨rfl, rfl⟩ (List.forall_mem_singleton.mpr ⟨rfl, rfl⟩) rfl rfl rfl
  | countIn head | countOut head | judgeNothing head _ => exact drop head ⟨rfl, rfl⟩ rfl rfl rfl
  | aside head isAside => exact drop head (Duty.plain_of_isAside isAside) rfl rfl rfl
  | take => exact .quiet
  -- From here on an action goes on its way, or a task changes.
  | dispatch head found =>
    rename_i rest number action task
    cases head
    refine custody_of_eq (.dispatch (items_cons_some rfl) (custody_of_found found))
      (Custody.ext (custody_set found (Task.deaf_update _ _ _)) ?_ ?_)
    · show rest.filterMap Duty.looked? = (_ ++ _ ++ rest).filterMap Duty.looked?
      rw [List.append_assoc, looked_plain fun _ => Duty.plain_follow]
      rfl
    · show _ = items (_ ++ _ ++ rest) jobs
      rw [List.append_assoc, items_plain fun _ => Duty.plain_follow]
      exact ((items_cons_none rfl).trans (items_cons_some rfl)).symm
  | submit head found =>
    cases head
    exact custody_of_eq (.pass (items_cons_some rfl) (custody_of_found found) .accept)
      (Custody.ext rfl rfl (items_job_some rfl).symm)
  | turnAway head found =>
    cases head
    exact custody_of_eq (.pass (items_cons_some rfl) (custody_of_found found) .turnAway)
      (Custody.ext rfl rfl ((items_cons_some rfl).trans
        (congrArg (_ ::ₘ ·) (items_cons_none rfl))).symm)
  | refuse head found =>
    rename_i rest number action task
    cases head
    refine custody_of_eq (.settle (items_cons_some rfl) (custody_of_found found) rfl)
      (Custody.ext (custody_set found (Task.deaf_update _ _ _)) ?_ ?_)
    · show rest.filterMap Duty.looked? = (_ ++ rest).filterMap Duty.looked?
      rw [looked_plain fun _ => Duty.plain_follow]
    · exact (items_plain fun _ => Duty.plain_follow).symm
  | unlisten head listed =>
    cases head
    refine custody_of_eq .quiet (Custody.ext ?_ rfl rfl)
    funext number
    exact (Task.deaf_unlisten listed tasks number).symm
  | execute job found answered =>
    cases job
    exact custody_of_eq
      (.pass (items_job_some rfl) (custody_of_found found) (.execute (allowed _ _ _ _ answered)))
      (Custody.ext rfl rfl (items_job_some rfl).symm)
  | keepCounts job found =>
    cases job
    exact custody_of_eq (.keepCounts (items_job_some rfl) (custody_of_found found))
      (Custody.ext (custody_set found (Task.deaf_withCounts _ _ _)) rfl (items_job_some rfl).symm)
  | keepValidation job found =>
    cases job
    exact custody_of_eq (.keepValidation (items_job_some rfl) (custody_of_found found))
      (Custody.ext (custody_set found (Task.deaf_withValidation _ _)) rfl (items_job_some rfl).symm)
  | report job found =>
    cases job
    exact custody_of_eq (.settle (items_job_some rfl) (custody_of_found found) rfl)
      (Custody.ext (custody_set found (Task.deaf_update _ _ _)) rfl (items_job_none rfl).symm)
  | follow job follows =>
    cases follows <;>
      exact custody_job job rfl (Multiset.filterMap_cons_none _ _ rfl) rfl rfl
  | complete job => exact custody_job job rfl (Multiset.filterMap_cons_none _ _ rfl) rfl rfl
  | leave job => exact custody_job job rfl rfl rfl rfl

end Ledger

theorem Run.custody_of_found {σ : Type} {run : Run σ} {number : Nat} {task : Task}
    (found : run.tasks[number]? = some task) : run.ledger.custody.tasks number = some task.deaf :=
  Ledger.custody_of_found found

end TableMigration
