/-
**What a run notes about its tables.**

* `Notes` are the groups of a run, its report so far, and the tables noted as failed.
* `Run.Serves` — a write that is made on behalf of a task: a delivery that was pending, or what a
  verification found to differ.
* `Run.Deals` — what a move can do to the notes and what it writes: it finishes a table, gives one up, or
  notes that one has a failed task; and what it writes besides is on behalf of a task.
-/

import TableMigration.Proofs.Deliveries
import TableMigration.Proofs.Writes

namespace TableMigration

/-! ### Notes -/

/-- What is noted about the tables of a run. -/
structure Notes where
  tables : Grouping
  report : Report
  /-- The full names of the tables that are noted as failed. -/
  failed : List String

namespace Notes

/-- Note that a table has a failed task. -/
def fail (notes : Notes) (name : String) : Notes :=
  { notes with failed := notes.failed ++ [name] }

/-- Note the end of a table with so many failed tasks. -/
def finish (notes : Notes) (key : String) (group : TableGroup) (isFailed : Bool)
    (failures : Nat) : Notes where
  tables := notes.tables.put key { group with finished := true }
  report :=
    { notes.report with
      succeeded :=
        if isFailed then notes.report.succeeded else notes.report.succeeded ++ [group.fullName]
      failed := if isFailed then notes.report.failed ++ [group.fullName] else notes.report.failed
      succeededTasks := notes.report.succeededTasks + (group.tasks.length - failures)
      failedTasks := notes.report.failedTasks + failures }
  failed := notes.failed

/-- Note that a table can go no further. -/
def giveUp (notes : Notes) (key : String) : Notes :=
  { notes with report := { notes.report with unfinished := notes.report.unfinished ++ [key] } }

end Notes

/-- Whether a write addresses the row of a table. -/
def Write.isOnRow : Write → Bool
  | .status _ _ partitions _ => partitions.isEmpty
  | .failure .. => true

namespace Run

variable {σ : Type} {engines : Engines σ} {run after next : Run σ}

/-- The notes of a run. -/
def notes (run : Run σ) : Notes :=
  ⟨run.tables, run.report, run.scheduler.failedTables⟩

section Writes

variable (engines : Engines σ) (run : Run σ) (write : Write) (refused : String → Notice)

@[simp] theorem tables_write : (run.write engines write refused).tables = run.tables := by
  unfold Run.write
  split
  · rfl
  · dsimp only
    split <;> rfl

@[simp] theorem report_write : (run.write engines write refused).report = run.report := by
  unfold Run.write
  split
  · rfl
  · dsimp only
    split <;> rfl

@[simp] theorem scheduler_write : (run.write engines write refused).scheduler = run.scheduler := by
  unfold Run.write
  split
  · rfl
  · dsimp only
    split <;> rfl

end Writes

theorem notes_finishTable (engines : Engines σ) (run : Run σ) (key : String)
    (group : TableGroup) : (run.finishTable engines key group).notes =
      run.notes.finish key group (run.tableFailed group)
        (group.tasks.filter run.hasFailed).length := by
  unfold finishTable Notes.finish notes recordFailure
  dsimp only
  by_cases failed : run.tableFailed group = true
  · rw [if_pos (by exact failed), if_pos failed, if_pos failed]
    simp only [tables_write, report_write, scheduler_write, tell, emit]
  · rw [if_neg (by exact failed), if_neg failed, if_neg failed]
    simp only [tables_write, report_write, scheduler_write, tell, emit]

theorem notes_giveUp (engines : Engines σ) (run : Run σ) (key : String) (group : TableGroup) :
    (run.giveUp engines key group).notes = run.notes.giveUp key := by
  unfold giveUp recordFailure notes
  dsimp only
  split
  · rw [tables_write, report_write, scheduler_write]
    rfl
  · rfl

/-- A delivery is a signal that is noted, or leaves the notes. -/
theorem notes_deliver {number : Nat} {task : Task} (found : run.tasks[number]? = some task)
    (delivery : Delivery) : (run.deliver engines number delivery).notes = run.notes ∨
      delivery = .signal .scheduler ∧
        (run.deliver engines number delivery).notes = run.notes.fail task.table.fullName := by
  unfold deliver
  rw [found]
  dsimp only
  split
  · rename_i signal
    unfold noteFailure
    split
    · exact .inl rfl
    · exact .inr ⟨signal, rfl⟩
  · exact .inl rfl

theorem notes_announce (run : Run σ) (number : Nat) (changed : Option Progress) :
    (run.announce number changed).notes = run.notes := by
  unfold announce
  split
  · split <;> rfl
  · rfl

theorem notes_reportProgress (run : Run σ) (number : Nat) (action : Action)
    (progress : Progress) : (run.reportProgress number action progress).1.notes = run.notes := by
  unfold reportProgress
  split <;> rfl

theorem notes_callEngine (engines : Engines σ) (run : Run σ) (number : Nat) (task : Task)
    (action : Action) : (run.callEngine engines number task action).2.notes = run.notes := by
  unfold callEngine
  split <;> rfl

/-! ### Writes on behalf of tasks -/

/-- The task on whose behalf a move is made, if it delivers something or goes on with a job. -/
def client? (run : Run σ) : Move → Option Nat
  | .advance =>
    match run.agenda.head? with
    | some (.deliver number _) => some number
    | _ => none
  | .work engine place =>
    ((run.scheduler.pools.get engine).running[place]?).map fun ticket => ticket.job.task
  | .take _ => none

/-- Whether a write of a move is made on behalf of a task: it is a delivery that was pending, or
records what a verification found to differ. -/
inductive Serves (run : Run σ) (move : Move) (number : Nat) (task : Task) :
    StoreRef × Write → Prop
  | delivery {store write} (known : task.store = some store)
      (pending : run.ledger.Pending number (.write write)) : Serves run move number task (store, write)
  | mismatch {store} (filled : task.validatePartitions.failed ≠ [])
      (asked : ⟨number, .finalVerification, .call⟩ ∈ run.ledger.jobs) :
      Serves run move number task
        (store, .status task.table.database task.table.name task.validatePartitions.failed .failed)

/-- Whether a move makes writes on behalf of tasks only. -/
def ServesOnly (run : Run σ) (move : Move) : Prop :=
  ∀ written ∈ run.writes move, ∃ number task, run.client? move = some number ∧
    run.tasks[number]? = some task ∧ run.Serves move number task written

theorem serves_writesOf {move : Move} {number : Nat} {task : Task} {delivery : Delivery}
    (pending : run.ledger.Pending number delivery) :
    ∀ written ∈ task.writesOf delivery, run.Serves move number task written := by
  intro written member
  cases delivery with
  | signal => cases member
  | write write =>
    obtain ⟨store, known, rfl⟩ := List.mem_map.mp member
    exact .delivery (Option.mem_toList.mp known) pending

theorem serves_mismatchWrites {move : Move} {number : Nat} {task : Task}
    (store : Option StoreRef) (asked : ⟨number, .finalVerification, .call⟩ ∈ run.ledger.jobs) :
    ∀ written ∈ task.mismatchWrites store, run.Serves move number task written := by
  intro written member
  unfold Task.mismatchWrites at member
  split at member
  · cases member
  · rename_i differs
    obtain ⟨store, _, rfl⟩ := List.mem_map.mp member
    refine .mismatch (fun agreeing => differs (.inr ?_)) asked
    rw [agreeing]
    rfl

/-! ### What a move can do -/

/-- **What a move can do to the notes, and what it writes.** -/
inductive Deals (run : Run σ) (move : Move) (next : Run σ) : Prop
  | nothing (same : next.notes = run.notes) (serves : run.ServesOnly move)
  | fail {number task} (found : run.tasks[number]? = some task)
      (pending : run.ledger.Pending number (.signal .scheduler))
      (after : next.notes = run.notes.fail task.table.fullName) (serves : run.ServesOnly move)
  | finish {key rest group} (advances : move = .advance) (head : run.agenda = .judge key :: rest)
      (found : run.tables.get? key = some group) (ended : group.tasks.all run.isEnded = true)
      (after : next.notes = run.notes.finish key group (run.tableFailed group)
        (group.tasks.filter run.hasFailed).length)
      (writes : run.writes move = run.scheduler.store.toList.map fun store =>
        (store, run.lastWrite group))
  | giveUp {key rest group} (advances : move = .advance) (head : run.agenda = .giveUp key :: rest)
      (found : run.tables.get? key = some group) (after : next.notes = run.notes.giveUp key)
      (writes : run.writes move = if run.tableFailed group then
        run.scheduler.store.toList.map fun store => (store, .failure group.database group.name)
      else [])

/-- A delivery may be noted, and makes its writes. -/
theorem deals_delivery {move : Move} {number : Nat} {task : Task} {delivery : Delivery}
    (found : run.tasks[number]? = some task) (pending : run.ledger.Pending number delivery)
    (client : run.client? move = some number) (writes : run.writes move = task.writesOf delivery)
    (notes : next.notes = run.notes ∨
      delivery = .signal .scheduler ∧ next.notes = run.notes.fail task.table.fullName) :
    run.Deals move next := by
  have serves : run.ServesOnly move := by
    intro written member
    exact ⟨number, task, client, found, serves_writesOf pending written (writes ▸ member)⟩
  rcases notes with same | ⟨rfl, after⟩
  · exact .nothing same serves
  · exact .fail found pending after serves

theorem writes_advance {duty : Duty} {rest : List Duty} (head : run.agenda = duty :: rest) :
    run.writes .advance = run.dutyWrites duty := by
  unfold Run.writes
  rw [head]
  exact List.append_nil _

/-- Most moves leave the notes and write nothing. -/
theorem Deals.silent {move : Move} (same : next.notes = run.notes) (quiet : run.writes move = []) :
    run.Deals move next :=
  .nothing same fun written member => by
    rw [quiet] at member
    cases member

theorem deals_deliver {number : Nat} {delivery : Delivery} {rest : List Duty}
    (head : run.agenda = .deliver number delivery :: rest)
    (performed : { run with agenda := rest }.perform engines (.deliver number delivery) =
      some next) : run.Deals .advance next := by
  have writes := writes_advance head
  cases performed
  cases found : run.tasks[number]? with
  | none =>
    refine .silent ?_ ?_
    · simp only [deliver, found]
      rfl
    · simp only [writes, dutyWrites, found, Option.toList_none, List.flatMap_nil]
  | some task =>
    simp only [dutyWrites, found, Option.toList_some, List.flatMap_singleton] at writes
    have client : run.client? .advance = some number := by
      simp only [client?, head, List.head?_cons]
    have planned : .deliver number delivery ∈ run.agenda := head ▸ List.mem_cons_self
    exact deals_delivery found (.inl planned) client writes (notes_deliver (by exact found) delivery)

theorem deals_judge {key : String} {rest : List Duty} (head : run.agenda = .judge key :: rest)
    (performed : { run with agenda := rest }.perform engines (.judge key) = some next) :
    run.Deals .advance next := by
  have writes := writes_advance head
  cases found : run.tables.get? key with
  | none =>
    simp only [perform, found] at performed
    simp only [dutyWrites, found] at writes
    cases performed
    exact .silent rfl writes
  | some group =>
    simp only [perform, found] at performed
    simp only [dutyWrites, found] at writes
    by_cases ended : group.tasks.all run.isEnded = true
    · rw [if_pos (by exact ended)] at performed writes
      cases performed
      exact .finish rfl head found ended (notes_finishTable ..) writes
    · rw [if_neg (by exact ended)] at performed writes
      cases performed
      exact .silent rfl writes

theorem deals_giveUp {key : String} {rest : List Duty} (head : run.agenda = .giveUp key :: rest)
    (performed : { run with agenda := rest }.perform engines (.giveUp key) = some next) :
    run.Deals .advance next := by
  have writes := writes_advance head
  cases found : run.tables.get? key with
  | none =>
    simp only [perform, found] at performed
    simp only [dutyWrites, found] at writes
    cases performed
    exact .silent rfl writes
  | some group =>
    simp only [perform, found] at performed
    simp only [dutyWrites, found] at writes
    cases performed
    exact .giveUp rfl head found (notes_giveUp ..) writes

theorem deals_perform {duty : Duty} {rest : List Duty} (head : run.agenda = duty :: rest)
    (performed : { run with agenda := rest }.perform engines duty = some next) :
    run.Deals .advance next := by
  have writes := writes_advance head
  cases duty with
  | deliver => exact deals_deliver head performed
  | judge => exact deals_judge head performed
  | giveUp => exact deals_giveUp head performed
  | look number | collect number =>
    cases performed
    refine .silent ?_ writes
    split <;> rfl
  | dispatch number action =>
    cases performed
    refine .silent ?_ writes
    split
    · rfl
    · exact notes_reportProgress ..
  | submit number action =>
    cases performed
    refine .silent ?_ writes
    dsimp only
    split
    · rfl
    · split <;> rfl
  | refuse number action =>
    cases performed
    exact .silent (notes_reportProgress ..) writes
  | announce number progress =>
    cases performed
    exact .silent (notes_announce ..) writes
  | test =>
    cases performed
    refine .silent ?_ writes
    split
    · rfl
    · split <;> rfl
  | join engine =>
    simp only [perform, Option.map_eq_some_iff] at performed
    obtain ⟨_, _, rfl⟩ := performed
    exact .silent rfl writes
  | beginPass | countIn | countOut | wait | close | unlisten | conclude =>
    cases performed
    exact .silent rfl writes

theorem deals_work {engine : Engine} {place : Nat}
    (moved : run.work engines engine place = some next) : run.Deals (.work engine place) next := by
  obtain ⟨ticket, task, job, found, goes⟩ := work_cases moved
  have writes : run.writes (.work engine place) =
      run.stageWrites task ticket.job.action ticket.job.stage := by
    simp only [Run.writes, job, found, Option.toList_some, List.flatMap_singleton]
  have client : run.client? (.work engine place) = some ticket.job.task := by
    simp only [client?, job, Option.map_some]
  have held : ticket.job ∈ run.ledger.jobs := by
    obtain ⟨others, held, _⟩ := ledger_amend job
    exact held ▸ Multiset.mem_cons_self _ _
  rcases goes with ⟨after, later, does, rfl⟩ | ⟨execution, ending, notices, leaves, rfl⟩
  · generalize staged : ticket.job.stage = stage at does writes
    cases does with
    | call =>
      refine .nothing (notes_callEngine ..) fun written member => ?_
      refine ⟨_, task, client, found, ?_⟩
      rw [writes] at member
      unfold stageWrites at member
      dsimp only at member
      split at member
      · rename_i itself
        refine serves_mismatchWrites _ ?_ written member
        rw [← Action.engine_eq_validation itself.1, ← staged]
        exact held
      · cases member
    | deliver execution changed delivery rest =>
      have pending : run.ledger.Pending ticket.job.task delivery := by
        refine .inr ⟨ticket.job, held, rfl, ?_⟩
        rw [staged]
        exact List.mem_cons_self
      exact deals_delivery found pending client writes (notes_deliver found delivery)
    | announce => exact .silent (notes_announce ..) writes
    | _ => exact .silent rfl writes
  · rw [leaves] at writes
    exact .silent rfl writes

/-- **Every move deals with the tables in one of these ways.** -/
theorem step_deals {move : Move} (moved : run.step engines move = some next) :
    run.Deals move next := by
  cases move with
  | advance =>
    obtain ⟨duty, rest, agenda, performed⟩ := exists_of_advance moved
    exact deals_perform agenda performed
  | take engine =>
    simp only [step, takeJob, Option.map_eq_some_iff] at moved
    obtain ⟨_, _, rfl⟩ := moved
    exact .silent rfl rfl
  | work engine place => exact deals_work moved

/-- What is written beside the rows of tables is written on behalf of a task. -/
theorem serves_of_beside {move : Move} {call : StoreRef × Write}
    (moved : run.step engines move = some next) (made : call ∈ run.writes move)
    (beside : call.2.isOnRow = false) :
    ∃ number task, run.client? move = some number ∧ run.tasks[number]? = some task ∧
      run.Serves move number task call := by
  cases step_deals moved with
  | nothing _ serves | fail _ _ _ serves => exact serves call made
  | finish _ _ _ _ _ writes =>
    rw [writes] at made
    obtain ⟨_, _, rfl⟩ := List.mem_map.mp made
    unfold lastWrite at beside
    split at beside <;> cases beside
  | giveUp _ _ _ _ writes =>
    rw [writes] at made
    split at made
    · obtain ⟨_, _, rfl⟩ := List.mem_map.mp made
      cases beside
    · cases made

/-- A table that is to be given up is. -/
theorem notes_advance_giveUp {key : String} {rest : List Duty} {group : TableGroup}
    (head : run.agenda = .giveUp key :: rest) (found : run.tables.get? key = some group)
    (moved : run.step engines .advance = some next) : next.notes = run.notes.giveUp key := by
  have performed : { run with agenda := rest }.perform engines (.giveUp key) = some next :=
    (advance_eq head).symm.trans moved
  simp only [perform, found] at performed
  cases performed
  exact notes_giveUp ..

end Run

end TableMigration
