/-
**What tasks keep of the results of their actions.**

* Counts are kept by actions on the source and destination engines, under the full name of the
  table; a division of the partitions is kept by the final verification. Neither moves an action
  or a task on (`actionProgress_withCounts`, `actionProgress_withValidation`).
* `rowCounts_withCounts_self` — an action that counts shows the counts of its last result;
  `rowCounts_withCounts_of_ne` — and no other action, and no other table, is touched by it.
* `Task.WellKept` says that every record is of the sort that its action keeps. It holds of every
  task that was built by adding actions (`wellKept_addActions`), and nothing loses it.
-/

import TableMigration.Proofs.Progress

namespace TableMigration

/-! ### Sorts of records -/

/-- Whether a record is of the sort that its action keeps. -/
def Record.Suits (record : Record) (action : Action) : Prop :=
  match record.findings with
  | .counts _ => action.engine ≠ .validation
  | .verdict _ => action.engine = .validation

theorem Record.suits_fresh (action : Action) : (Record.fresh action).Suits action := by
  cases action <;> simp [Record.fresh, Record.Suits, Action.engine]

namespace Task

variable {task : Task} {action other : Action}

/-- Whether every record of a task is of the sort that its action keeps. -/
def WellKept (task : Task) : Prop :=
  ∀ action record, task.records action = some record → record.Suits action

theorem wellKept_create (name : String) (table : Table) (config : TableConfig)
    (store : Option StoreRef) (failureStatus : Status) :
    (create name table config store failureStatus).WellKept := by
  intro action record found
  cases found

theorem wellKept_addAction (kept : task.WellKept) (action : Action) :
    (task.addAction action).WellKept := by
  intro other record found
  by_cases same : other = action
  · subst same
    rw [addAction, records_setRecord_self] at found
    cases found
    exact Record.suits_fresh other
  · rw [addAction, records_setRecord_of_ne _ _ same] at found
    exact kept other record found

/-- A task that was built by adding actions is well kept. -/
theorem wellKept_addActions (kept : task.WellKept) (actions : List Action) :
    (task.addActions actions).WellKept := by
  induction actions generalizing task with
  | nil => exact kept
  | cons action rest hyp => exact hyp (wellKept_addAction kept action)

/-! ### Keeping what was found -/

/-- A task with the counts of a result, if the action keeps counts. -/
def withCounts (task : Task) (action : Action) (execution : Execution) : Task :=
  (execution.counts.bind (task.keepCounts action task.table.fullName)).getD task

/-- A task with the division of its partitions that a result brings. -/
def withValidation (task : Task) (execution : Execution) : Task :=
  (execution.validation.bind task.keepValidation).getD task

/-- Counts are kept in the record of their action, and nothing else is touched. -/
theorem withCounts_cases (task : Task) (action : Action) (execution : Execution) :
    task.withCounts action execution = task ∨
      ∃ progress byTable counts, task.records action = some ⟨progress, .counts byTable⟩ ∧
        execution.counts = some counts ∧
        task.withCounts action execution =
          task.setRecord action ⟨progress, .counts (byTable.put task.table.fullName counts)⟩ := by
  unfold withCounts
  cases counted : execution.counts with
  | none => exact .inl rfl
  | some counts =>
    rw [Option.bind_some]
    unfold keepCounts
    split
    · rename_i progress byTable found
      exact .inr ⟨progress, byTable, counts, found, rfl, rfl⟩
    · exact .inl rfl

theorem withValidation_cases (task : Task) (execution : Execution) :
    task.withValidation execution = task ∨
      ∃ progress old validation, task.records .finalVerification = some ⟨progress, .verdict old⟩ ∧
        execution.validation = some validation ∧
        task.withValidation execution =
          task.setRecord .finalVerification ⟨progress, .verdict (some validation)⟩ := by
  unfold withValidation
  cases divided : execution.validation with
  | none => exact .inl rfl
  | some validation =>
    rw [Option.bind_some]
    unfold keepValidation
    split
    · rename_i progress old found
      exact .inr ⟨progress, old, validation, found, rfl, rfl⟩
    · exact .inl rfl

/-- Replacing a record by one with the same progress keeps the progress of every action. -/
theorem actionProgress_setRecord_same {record : Record}
    (same : task.actionProgress action = some record.progress) :
    (task.setRecord action record).actionProgress other = task.actionProgress other := by
  rw [actionProgress_setRecord]
  split
  · rename_i equal
    rw [equal, same]
  · rfl

@[simp] theorem actionProgress_withCounts (task : Task) (action other : Action)
    (execution : Execution) :
    (task.withCounts action execution).actionProgress other = task.actionProgress other := by
  rcases task.withCounts_cases action execution with same | ⟨_, _, _, found, _, after⟩
  · rw [same]
  · rw [after]
    exact actionProgress_setRecord_same (by rw [actionProgress, found]; rfl)

@[simp] theorem actionProgress_withValidation (task : Task) (other : Action)
    (execution : Execution) :
    (task.withValidation execution).actionProgress other = task.actionProgress other := by
  rcases task.withValidation_cases execution with same | ⟨_, _, _, found, _, after⟩
  · rw [same]
  · rw [after]
    exact actionProgress_setRecord_same (by rw [actionProgress, found]; rfl)

@[simp] theorem progress_withCounts (task : Task) (action : Action) (execution : Execution) :
    (task.withCounts action execution).progress = task.progress := by
  rcases task.withCounts_cases action execution with same | ⟨_, _, _, _, _, after⟩
  · rw [same]
  · rw [after]
    rfl

@[simp] theorem progress_withValidation (task : Task) (execution : Execution) :
    (task.withValidation execution).progress = task.progress := by
  rcases task.withValidation_cases execution with same | ⟨_, _, _, _, _, after⟩
  · rw [same]
  · rw [after]
    rfl

theorem withCounts_sameKind (task : Task) (action : Action) (execution : Execution) :
    SameKind (task.withCounts action execution) task := by
  have has : ∀ other, (task.withCounts action execution).has other = task.has other := by
    intro other
    rw [has_eq, has_eq, actionProgress_withCounts]
  rcases task.withCounts_cases action execution with same | ⟨_, _, _, _, _, after⟩
  · rw [same]
    exact .refl task
  · refine ⟨?_, ?_, ?_, ?_, ?_, has⟩ <;> rw [after] <;> rfl

theorem withValidation_sameKind (task : Task) (execution : Execution) :
    SameKind (task.withValidation execution) task := by
  have has : ∀ other, (task.withValidation execution).has other = task.has other := by
    intro other
    rw [has_eq, has_eq, actionProgress_withValidation]
  rcases task.withValidation_cases execution with same | ⟨_, _, _, _, _, after⟩
  · rw [same]
    exact .refl task
  · refine ⟨?_, ?_, ?_, ?_, ?_, has⟩ <;> rw [after] <;> rfl

@[simp] theorem rowCounts_withValidation (task : Task) (execution : Execution) (other : Action)
    (table : String) :
    (task.withValidation execution).rowCounts other table = task.rowCounts other table := by
  rcases task.withValidation_cases execution with same | ⟨_, _, _, found, _, after⟩
  · rw [same]
  · rw [after]
    by_cases equal : other = .finalVerification
    · subst equal
      simp [rowCounts, setRecord, found]
    · simp [rowCounts, setRecord, equal]

/-- Another action, or another table, keeps its counts. -/
theorem rowCounts_withCounts_of_ne (execution : Execution) {table : String}
    (apart : other ≠ action ∨ table ≠ task.table.fullName) :
    (task.withCounts action execution).rowCounts other table = task.rowCounts other table := by
  rcases task.withCounts_cases action execution with same | ⟨_, byTable, counts, found, _, after⟩
  · rw [same]
  · rw [after]
    by_cases equal : other = action
    · subst equal
      have different : task.table.fullName ≠ table := fun same =>
        apart.elim (fun different => different rfl) fun different => different same.symm
      simp only [rowCounts, setRecord, if_true, found]
      exact Keyed.get?_put_of_ne byTable counts different
    · simp [rowCounts, setRecord, equal]

/-- The counts of a result are found under the table of the task; without any, the old ones. -/
theorem rowCounts_withCounts_self (kept : task.WellKept) (has : task.has action = true)
    (counting : action.engine ≠ .validation) (execution : Execution) :
    (task.withCounts action execution).rowCounts action task.table.fullName =
      execution.counts.or (task.rowCounts action task.table.fullName) := by
  obtain ⟨⟨progress, findings⟩, found⟩ := Option.isSome_iff_exists.mp has
  have suits := kept action _ found
  cases findings with
  | verdict _ => exact absurd suits counting
  | counts byTable =>
    cases counted : execution.counts with
    | none => simp [withCounts, counted]
    | some counts =>
      simp [withCounts, counted, keepCounts, found, rowCounts, setRecord, Keyed.get?_put_self]

/-- An action on the verification engine keeps no counts. -/
theorem rowCounts_of_validation (kept : task.WellKept) (checking : action.engine = .validation)
    (table : String) : task.rowCounts action table = none := by
  unfold rowCounts
  split
  · rename_i progress byTable found
    exact absurd checking (kept action _ found)
  · rfl

theorem WellKept.setRecord (kept : task.WellKept) (record : Record) (suits : record.Suits action) :
    (task.setRecord action record).WellKept := by
  intro other record' found
  by_cases same : other = action
  · subst same
    rw [records_setRecord_self] at found
    cases found
    exact suits
  · rw [records_setRecord_of_ne _ _ same] at found
    exact kept other record' found

theorem WellKept.update (kept : task.WellKept) (action : Action) (reported : Progress) :
    (task.update action reported).task.WellKept := by
  by_cases taken : task.Takes action reported
  · obtain ⟨record, found, after⟩ := update_of_takes taken
    rw [after]
    exact kept.setRecord { record with progress := reported } (kept action record found)
  · rw [update_of_not_takes taken]
    exact kept

theorem WellKept.withCounts (kept : task.WellKept) (action : Action) (execution : Execution) :
    (task.withCounts action execution).WellKept := by
  rcases task.withCounts_cases action execution with same | ⟨_, _, _, found, _, after⟩
  · rw [same]
    exact kept
  · have suits := kept action _ found
    rw [after]
    exact kept.setRecord _ suits

theorem WellKept.withValidation (kept : task.WellKept) (execution : Execution) :
    (task.withValidation execution).WellKept := by
  rcases task.withValidation_cases execution with same | ⟨_, _, _, found, _, after⟩
  · rw [same]
    exact kept
  · have suits := kept .finalVerification _ found
    rw [after]
    exact kept.setRecord _ suits

theorem validation_withCounts (task : Task) (action : Action) (execution : Execution) :
    (task.withCounts action execution).validation = task.validation := by
  rcases task.withCounts_cases action execution with same | ⟨_, _, _, found, _, after⟩
  · rw [same]
  · rw [after]
    unfold validation
    by_cases equal : Action.finalVerification = action
    · subst equal
      rw [records_setRecord_self, found]
    · rw [records_setRecord_of_ne _ _ equal]

/-- A task that has a final verification keeps the division of a result. -/
theorem validation_withValidation (kept : task.WellKept)
    (has : task.has .finalVerification = true) {execution : Execution}
    {validation : Validation} (divided : execution.validation = some validation) :
    (task.withValidation execution).validation = some validation := by
  obtain ⟨record, found⟩ := Option.isSome_iff_exists.mp has
  obtain ⟨progress, findings⟩ := record
  have suits := kept .finalVerification _ found
  cases findings with
  | counts byTable => exact absurd rfl suits
  | verdict old =>
    unfold withValidation keepValidation
    simp only [divided, Option.bind_some, found]
    unfold Task.validation
    rw [Option.getD_some, records_setRecord_self]

/-! ### Fresh tasks -/

/-- Whether nothing was done to a task since it was built. -/
structure Fresh (task : Task) : Prop where
  progress : task.progress = .new
  records : ∀ action record, task.records action = some record → record = .fresh action

theorem fresh_create (name : String) (table : Table) (config : TableConfig)
    (store : Option StoreRef) (failureStatus : Status) :
    (create name table config store failureStatus).Fresh :=
  ⟨rfl, fun _ _ found => nomatch found⟩

theorem Fresh.addAction (fresh : task.Fresh) (action : Action) : (task.addAction action).Fresh where
  progress := fresh.progress
  records other record found := by
    by_cases same : other = action
    · subst same
      rw [Task.addAction, records_setRecord_self] at found
      exact (Option.some.inj found).symm
    · rw [Task.addAction, records_setRecord_of_ne _ _ same] at found
      exact fresh.records other record found

/-- A task that was just built is fresh. -/
theorem Fresh.addActions (fresh : task.Fresh) (actions : List Action) :
    (task.addActions actions).Fresh := by
  induction actions generalizing task with
  | nil => exact fresh
  | cons action rest hyp => exact hyp (fresh.addAction action)

theorem Fresh.actionProgress (fresh : task.Fresh) {progress : Progress}
    (found : task.actionProgress action = some progress) : progress = .new := by
  obtain ⟨record, recorded, rfl⟩ := Option.map_eq_some_iff.mp found
  rw [fresh.records action record recorded]
  unfold Record.fresh
  split <;> rfl

theorem Fresh.judged (fresh : task.Fresh) : task.Judged where
  failed := by
    rw [fresh.progress]
    exact ⟨nofun, fun ⟨action, failed⟩ => nomatch fresh.actionProgress failed⟩
  succeeded := by
    rw [fresh.progress]
    refine ⟨nofun, fun ⟨⟨action, has⟩, all⟩ => ?_⟩
    rw [has_eq] at has
    obtain ⟨progress, found⟩ := Option.isSome_iff_exists.mp has
    have new := fresh.actionProgress found
    rw [all action progress found] at new
    cases new

theorem Fresh.wellKept (fresh : task.Fresh) : task.WellKept := by
  intro action record found
  rw [fresh.records action record found]
  exact Record.suits_fresh action

theorem Fresh.rowCounts (fresh : task.Fresh) (action : Action) (table : String) :
    task.rowCounts action table = none := by
  unfold Task.rowCounts
  split
  · rename_i progress byTable found
    have same := fresh.records action _ found
    unfold Record.fresh at same
    split at same
    · cases same
      rfl
    · cases same
      rfl
    · cases same
  · rfl

end Task

end TableMigration
