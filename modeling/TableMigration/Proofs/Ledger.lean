/-
**What a run comes down to.**

* An `Act` is what a move does to an action of a task, or finds out about a task. `Run.trace` lists
  the acts of some moves.
* A `Ledger` is what is left of a run without its stores, engines and pools: the tasks and tables,
  the agenda, the jobs that wait or are worked on, and the counters. `Ledger.Step` says, once for
  all that follows, what one move can do to it.
  That every move of a run is a step of its ledger is shown with the moves.
-/

import Mathlib.Data.Multiset.Filter
import TableMigration.Proofs.Findings
import TableMigration.Scheduler.Run

namespace TableMigration

/-! ### Acts -/

/-- What a move does to an action, or finds out about a task. -/
inductive Act where
  /-- A pass found that a task had come to its end. -/
  | foundEnded (task : Nat)
  /-- An action was handed out: it was marked as running. -/
  | dispatched (task : Nat) (action : Action)
  /-- The pool of an action refused it. -/
  | refused (task : Nat) (action : Action)
  /-- An action was executed, with this result. -/
  | executed (task : Nat) (action : Action) (execution : Execution)
  deriving DecidableEq

/-- Whether a task has come to its end. A task that does not exist has. -/
def Task.endedIn (tasks : List Task) (number : Nat) : Bool :=
  (tasks[number]?).all fun task => task.progress.isTerminal

/-- Listen to a task no more. -/
def Task.unlistenTo (tasks : List Task) (number : Nat) : List Task :=
  tasks.modify number fun task => { task with listener := none }

/-- The tasks of a table that have come to their end. -/
def TableGroup.ended (tasks : List Task) (group : TableGroup) : List Nat :=
  group.tasks.filter (Task.endedIn tasks)

namespace Run

variable {σ : Type}

/-- The acts of a duty. -/
def dutyActs (run : Run σ) : Duty → List Act
  | .look number => if run.isEnded number then [.foundEnded number] else []
  | .judge key =>
    match run.tables.get? key with
    | none => []
    | some group => (group.ended run.tasks).map .foundEnded
  | .dispatch number action =>
    match run.tasks[number]? with
    | none => []
    | some _ => [.dispatched number action]
  | .submit number action =>
    match run.tasks[number]?, (run.scheduler.pools.get action.engine).refusal? with
    | some _, some _ => [.refused number action]
    | _, _ => []
  | _ => []

/-- The acts of a move. -/
def acts (engines : Engines σ) (run : Run σ) : Move → List Act
  | .advance => run.agenda.head?.toList.flatMap run.dutyActs
  | .take _ => []
  | .work engine place =>
    match (run.scheduler.pools.get engine).running[place]? with
    | some ⟨_, _, ⟨number, action, .call⟩⟩ =>
      match run.tasks[number]? with
      | some task => [.executed number action (run.callEngine engines number task action).1]
      | none => []
    | _ => []

/-- The acts of some moves, one after the other. -/
def trace (engines : Engines σ) (run : Run σ) : List Move → List Act
  | [] => []
  | move :: rest =>
    match run.step engines move with
    | none => []
    | some next => run.acts engines move ++ next.trace engines rest

end Run

/-! ### Ledgers -/

/-- The jobs that wait in a pool or are worked on. -/
def Pool.jobs {α : Type} (pool : Pool α) : Multiset α :=
  (pool.queue.map Ticket.job : Multiset α) + (pool.running.map Ticket.job : Multiset α)

/-- The jobs of all pools. -/
def Pools.jobs (pools : Pools) : Multiset Job :=
  pools.source.jobs + pools.destination.jobs + pools.validation.jobs

/-- What is left of a run without stores, engines and pools. -/
structure Ledger where
  tasks : List Task
  tables : Grouping
  agenda : List Duty
  jobs : Multiset Job
  inFlight : Nat
  completions : Nat
  seen : Nat
  dispatched : Nat

/-- The ledger of a run. -/
def Run.ledger {σ : Type} (run : Run σ) : Ledger where
  tasks := run.tasks
  tables := run.tables
  agenda := run.agenda
  jobs := run.scheduler.pools.jobs
  inFlight := run.scheduler.inFlight
  completions := run.scheduler.completions
  seen := run.seen
  dispatched := run.dispatched

/-- A task, if a duty is about one and can do nothing without it. -/
def Duty.subject? : Duty → Option Nat
  | .collect number | .dispatch number _ | .submit number _ | .refuse number _ => some number
  | _ => none

/-- Whether a duty never touches a task, a counter or the agenda. -/
def Duty.isAside : Duty → Bool
  | .deliver .. | .announce .. | .giveUp _ | .close _ | .join _ | .conclude => true
  | _ => false

/-- The stages of a job that follow on each other without touching a task or a counter. -/
inductive Stage.Follows : Stage → Stage → Prop
  | deliver (execution : Execution) (changed : Option Progress) (delivery : Delivery)
      (rest : List Delivery) :
      Follows (.deliver execution changed (delivery :: rest)) (.deliver execution changed rest)
  | delivered (execution : Execution) (changed : Option Progress) :
      Follows (.deliver execution changed []) (.announce execution changed)
  | announce (execution : Execution) (changed : Option Progress) :
      Follows (.announce execution changed) (.countOut execution)

/-- **What one move can do.** Engines answer as `answers` allows. -/
inductive Ledger.Step (answers : Nat → Task → Action → Execution → Prop) (ledger : Ledger) :
    List Act → Ledger → Prop
  | beginPass {rest} (head : ledger.agenda = .beginPass :: rest) :
      Step answers ledger []
        { ledger with
          agenda := Duty.pass ledger.tables ++ rest, seen := ledger.completions, dispatched := 0 }
  | lookEnded {rest number} (head : ledger.agenda = .look number :: rest)
      (ended : Task.endedIn ledger.tasks number = true) :
      Step answers ledger [.foundEnded number] { ledger with agenda := rest }
  | lookOn {rest number} (head : ledger.agenda = .look number :: rest)
      (going : Task.endedIn ledger.tasks number = false) :
      Step answers ledger [] { ledger with agenda := .collect number :: rest }
  | absent {rest duty number} (head : ledger.agenda = duty :: rest)
      (about : duty.subject? = some number) (absent : ledger.tasks[number]? = none) :
      Step answers ledger [] { ledger with agenda := rest }
  | collect {rest number task} (head : ledger.agenda = .collect number :: rest)
      (found : ledger.tasks[number]? = some task) :
      Step answers ledger []
        { ledger with agenda := task.readyActions.map (.dispatch number) ++ rest }
  | dispatch {rest number action task} (head : ledger.agenda = .dispatch number action :: rest)
      (found : ledger.tasks[number]? = some task) :
      Step answers ledger [.dispatched number action]
        { ledger with
          tasks := ledger.tasks.set number (task.update action .running).task
          agenda := Duty.follow number (task.update action .running).changed
            (task.update action .running).deliveries ++ [.countIn, .submit number action] ++ rest
          dispatched := ledger.dispatched + 1 }
  | countIn {rest} (head : ledger.agenda = .countIn :: rest) :
      Step answers ledger [] { ledger with agenda := rest, inFlight := ledger.inFlight + 1 }
  | submit {rest number action task} (head : ledger.agenda = .submit number action :: rest)
      (found : ledger.tasks[number]? = some task) :
      Step answers ledger []
        { ledger with agenda := rest, jobs := ⟨number, action, .call⟩ ::ₘ ledger.jobs }
  | turnAway {rest number action task} (head : ledger.agenda = .submit number action :: rest)
      (found : ledger.tasks[number]? = some task) :
      Step answers ledger [.refused number action]
        { ledger with agenda := .refuse number action :: .countOut :: rest }
  | refuse {rest number action task} (head : ledger.agenda = .refuse number action :: rest)
      (found : ledger.tasks[number]? = some task) :
      Step answers ledger []
        { ledger with
          tasks := ledger.tasks.set number (task.update action .failed).task
          agenda := Duty.follow number (task.update action .failed).changed
            (task.update action .failed).deliveries ++ rest }
  | countOut {rest} (head : ledger.agenda = .countOut :: rest) :
      Step answers ledger []
        { ledger with
          agenda := rest, inFlight := ledger.inFlight - 1, completions := ledger.completions + 1 }
  | judgeNothing {rest key} (head : ledger.agenda = .judge key :: rest)
      (missing : ledger.tables.get? key = none) :
      Step answers ledger [] { ledger with agenda := rest }
  | judge {rest key group} (head : ledger.agenda = .judge key :: rest)
      (found : ledger.tables.get? key = some group) :
      Step answers ledger ((group.ended ledger.tasks).map .foundEnded)
        { ledger with
          agenda := rest
          tables :=
            if group.tasks.all (Task.endedIn ledger.tasks) then
              ledger.tables.put key { group with finished := true }
            else ledger.tables }
  | testDone {rest} (head : ledger.agenda = .test :: rest)
      (done : ledger.tables.unfinished = []) :
      Step answers ledger [] { ledger with agenda := Duty.closing ++ rest }
  | testStuck {rest} (head : ledger.agenda = .test :: rest)
      (stuck : ledger.dispatched = 0 ∧ ledger.inFlight = 0 ∧ ledger.completions = ledger.seen) :
      Step answers ledger []
        { ledger with
          agenda := ledger.tables.unfinished.map (fun entry => .giveUp entry.1) ++ Duty.closing
            ++ rest }
  | testOn {rest} (head : ledger.agenda = .test :: rest)
      (busy : ¬ (ledger.dispatched = 0 ∧ ledger.inFlight = 0
        ∧ ledger.completions = ledger.seen)) :
      Step answers ledger [] { ledger with agenda := .wait :: rest }
  | wait {rest} (head : ledger.agenda = .wait :: rest) :
      Step answers ledger [] { ledger with agenda := .beginPass :: rest }
  | aside {rest duty} (head : ledger.agenda = duty :: rest) (isAside : duty.isAside = true) :
      Step answers ledger [] { ledger with agenda := rest }
  | unlisten {rest} (head : ledger.agenda = .unlisten :: rest) (listed : List Nat) :
      Step answers ledger []
        { ledger with agenda := rest, tasks := listed.foldl Task.unlistenTo ledger.tasks }
  | take : Step answers ledger [] ledger
  | execute {jobs number action task execution}
      (job : ledger.jobs = ⟨number, action, .call⟩ ::ₘ jobs)
      (found : ledger.tasks[number]? = some task)
      (answered : answers number task action execution) :
      Step answers ledger [.executed number action execution]
        { ledger with jobs := ⟨number, action, .keepCounts execution⟩ ::ₘ jobs }
  | keepCounts {jobs number action task execution}
      (job : ledger.jobs = ⟨number, action, .keepCounts execution⟩ ::ₘ jobs)
      (found : ledger.tasks[number]? = some task) :
      Step answers ledger []
        { ledger with
          tasks := ledger.tasks.set number (task.withCounts action execution)
          jobs := ⟨number, action, .keepValidation execution⟩ ::ₘ jobs }
  | keepValidation {jobs number action task execution}
      (job : ledger.jobs = ⟨number, action, .keepValidation execution⟩ ::ₘ jobs)
      (found : ledger.tasks[number]? = some task) :
      Step answers ledger []
        { ledger with
          tasks := ledger.tasks.set number (task.withValidation execution)
          jobs := ⟨number, action, .report execution⟩ ::ₘ jobs }
  | report {jobs number action task execution}
      (job : ledger.jobs = ⟨number, action, .report execution⟩ ::ₘ jobs)
      (found : ledger.tasks[number]? = some task) :
      Step answers ledger []
        { ledger with
          tasks := ledger.tasks.set number (task.update action execution.progress).task
          jobs := ⟨number, action, .deliver execution
            (task.update action execution.progress).changed
            (task.update action execution.progress).deliveries⟩ ::ₘ jobs }
  | follow {jobs number action stage next}
      (job : ledger.jobs = ⟨number, action, stage⟩ ::ₘ jobs) (follows : stage.Follows next) :
      Step answers ledger [] { ledger with jobs := ⟨number, action, next⟩ ::ₘ jobs }
  | complete {jobs number action execution}
      (job : ledger.jobs = ⟨number, action, .countOut execution⟩ ::ₘ jobs) :
      Step answers ledger []
        { ledger with
          jobs := ⟨number, action, .leave execution⟩ ::ₘ jobs
          inFlight := ledger.inFlight - 1
          completions := ledger.completions + 1 }
  | leave {jobs number action execution}
      (job : ledger.jobs = ⟨number, action, .leave execution⟩ ::ₘ jobs) :
      Step answers ledger [] { ledger with jobs := jobs }

end TableMigration
