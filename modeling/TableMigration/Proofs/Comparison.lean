/-
**How recorded counts decide about partitions.**

* `Task.Counted` — a validation has recorded, for the table of its task, a count under a key, and
  its text denotes a number. `Task.Matched` — both validations have, and the number is the same.
* `Task.SameVerdict` — two tasks divide their partitions alike and judge their tables alike. The
  numbers alone decide about it (`Task.validatePartitions_eq_of_counted`).
* `Task.compares` — the partitions that match come first and the others after them, each time in
  the order of the task, and nothing else that was recorded has a say in it.
-/

import TableMigration.Proofs.Findings
import TableMigration.Proofs.Numerals

namespace TableMigration

namespace Task

variable {task first second kept : Task} {action other : Action} {key table : String}
  {number : Int} {counts : RowCounts}

/-- The two actions whose counts are compared. -/
def countings : List Action :=
  [.sourceValidate, .destinationValidate]

/-- Whether an action has recorded a count under a key for the table of its task, and its text
denotes a number. -/
def Counted (task : Task) (action : Action) (key : String) (number : Int) : Prop :=
  ∃ counts text, task.rowCounts action task.table.fullName = some counts ∧
    counts.get? key = some text ∧ Count.Denotes text number

/-- Whether both validations have counted the same number under a key. -/
def Matched (task : Task) (key : String) : Prop :=
  ∃ number, task.Counted .sourceValidate key number ∧ task.Counted .destinationValidate key number

/-- Whether two tasks divide their partitions alike, and judge their tables alike. -/
def SameVerdict (first second : Task) : Prop :=
  first.validatePartitions = second.validatePartitions ∧
    first.validateTable = second.validateTable

/-! ### Numbers -/

theorem tableCounts_get? : (task.tableCounts action).get? key =
    (task.rowCounts action task.table.fullName).bind fun counts => counts.get? key := by
  unfold tableCounts
  cases task.rowCounts action task.table.fullName <;> rfl

/-- What is read of a count is what its text denotes. -/
theorem counted_iff : task.Counted action key number ↔
    ((task.tableCounts action).get? key).bind Count.read? = some number := by
  rw [tableCounts_get?]
  simp only [Option.bind_eq_some_iff, Count.read?_eq_some_iff]
  constructor
  · rintro ⟨counts, text, recorded, found, denotes⟩
    exact ⟨text, ⟨counts, recorded, found⟩, denotes⟩
  · rintro ⟨text, ⟨counts, recorded, found⟩, denotes⟩
    exact ⟨counts, text, recorded, found, denotes⟩

theorem countsAgree_iff : task.countsAgree key = true ↔ task.Matched key := by
  unfold countsAgree RowCounts.agree Matched
  simp only [counted_iff]
  split
  · rename_i one two source destination
    rw [source, destination, beq_iff_eq]
    exact ⟨fun same => ⟨one, rfl, congrArg some same.symm⟩,
      fun ⟨_, first, second⟩ => Option.some.inj (first.trans second.symm)⟩
  · rename_i either
    refine iff_of_false nofun fun ⟨number, source, destination⟩ => ?_
    exact either number number source destination

instance (task : Task) (key : String) : Decidable (task.Matched key) :=
  decidable_of_iff _ countsAgree_iff

theorem countsAgree_eq : task.countsAgree key = decide (task.Matched key) :=
  Bool.eq_iff_iff.mpr (countsAgree_iff.trans (decide_eq_true_iff).symm)

/-- The numbers of both validations decide whether a key matches. -/
theorem matched_congr (same : ∀ action ∈ countings, ∀ number,
    first.Counted action key number ↔ second.Counted action key number) :
    first.Matched key ↔ second.Matched key :=
  exists_congr fun number => and_congr (same _ (by decide) number) (same _ (by decide) number)

/-! ### Divisions -/

theorem validatePartitions_eq (task : Task) : task.validatePartitions = {
    succeeded := task.table.partitions.filter fun partition => task.Matched partition.key
    failed := task.table.partitions.filter fun partition => ¬ task.Matched partition.key } := by
  unfold validatePartitions partitionAgrees
  simp only [countsAgree_eq, decide_not]

/-- Tasks with the same partitions divide them alike if they have the same numbers for them. -/
theorem validatePartitions_eq_of_counted
    (partitions : first.table.partitions = second.table.partitions)
    (same : ∀ action ∈ countings, ∀ partition ∈ second.table.partitions, ∀ number,
      first.Counted action partition.key number ↔ second.Counted action partition.key number) :
    first.validatePartitions = second.validatePartitions := by
  have matched : ∀ partition ∈ second.table.partitions,
      (first.Matched partition.key ↔ second.Matched partition.key) := fun partition member =>
    matched_congr fun action among => same action among partition member
  rw [validatePartitions_eq, validatePartitions_eq, partitions]
  congr 1
  · exact List.filter_congr fun partition member => decide_eq_decide.mpr (matched partition member)
  · exact List.filter_congr fun partition member =>
      decide_eq_decide.mpr (not_congr (matched partition member))

theorem validateTable_eq_of_counted (same : ∀ action ∈ countings, ∀ number,
    first.Counted action "" number ↔ second.Counted action "" number) :
    first.validateTable = second.validateTable := by
  unfold validateTable
  rw [countsAgree_eq, countsAgree_eq]
  exact decide_eq_decide.mpr (matched_congr same)

/-- Tasks of one table in which the validations have recorded the same counts are judged alike. -/
theorem SameVerdict.of_counts (table : first.table = second.table)
    (same : ∀ action ∈ countings, first.tableCounts action = second.tableCounts action) :
    SameVerdict first second := by
  have counted : ∀ action ∈ countings, ∀ key number,
      first.Counted action key number ↔ second.Counted action key number := by
    intro action among key number
    rw [counted_iff, counted_iff, same action among]
  exact ⟨validatePartitions_eq_of_counted (congrArg Table.partitions table)
      fun action among partition _ => counted action among partition.key,
    validateTable_eq_of_counted fun action among => counted action among ""⟩

/-! ### Recorded counts -/

theorem keepCounts_eq (recorded : task.keepCounts action table counts = some kept) :
    kept.table = task.table ∧ kept.rowCounts action table = some counts ∧
      ∀ other name, other ≠ action ∨ name ≠ table →
        kept.rowCounts other name = task.rowCounts other name := by
  unfold keepCounts at recorded
  split at recorded
  · rename_i progress byTable found
    cases recorded
    refine ⟨rfl, ?_, fun other name apart => ?_⟩
    · simp [rowCounts, setRecord, Keyed.get?_put_self]
    · by_cases equal : other = action
      · subst equal
        have different : table ≠ name := (apart.resolve_left (not_not.mpr rfl)).symm
        simp [rowCounts, setRecord, found, Keyed.get?_put_of_ne byTable counts different]
      · simp [rowCounts, setRecord, equal]
  · cases recorded

/-- The counts of other actions, and those for other tables, have no say. -/
theorem sameVerdict_of_apart (recorded : task.keepCounts action table counts = some kept)
    (apart : action ∉ countings ∨ table ≠ task.table.fullName) : SameVerdict kept task := by
  obtain ⟨same, _, others⟩ := keepCounts_eq recorded
  refine .of_counts same fun other among => ?_
  unfold tableCounts
  rw [same, others other _ ?_]
  refine apart.imp (fun unread equal => unread (equal ▸ among)) Ne.symm

/-- Counts for which there were none are counts for which there are none. -/
theorem sameVerdict_of_absent (absent : task.rowCounts action task.table.fullName = none)
    (recorded : task.keepCounts action task.table.fullName [] = some kept) :
    SameVerdict kept task := by
  obtain ⟨same, mine, others⟩ := keepCounts_eq recorded
  refine .of_counts same fun other among => ?_
  unfold tableCounts
  rw [same]
  by_cases equal : other = action
  · rw [equal, mine, absent]
    rfl
  · rw [others other _ (.inl equal)]

theorem rowCounts_addAction (action other : Action) (table : String)
    (absent : task.rowCounts action table = none) :
    (task.addAction action).rowCounts other table = task.rowCounts other table := by
  by_cases equal : other = action
  · subst equal
    rw [absent]
    unfold rowCounts addAction
    rw [records_setRecord_self]
    cases other <;> rfl
  · unfold rowCounts addAction
    rw [records_setRecord_of_ne _ _ equal]

/-- An action that is added has no counts, as if it were not there. -/
theorem sameVerdict_addAction (absent : task.rowCounts action task.table.fullName = none) :
    SameVerdict (task.addAction action) task := by
  refine .of_counts rfl fun other _ => ?_
  unfold tableCounts
  rw [← rowCounts_addAction action other task.table.fullName absent]
  rfl

theorem keepCounts_addAction (task : Task) (counting : action.engine ≠ .validation)
    (table : String) (counts : RowCounts) :
    ∃ kept, (task.addAction action).keepCounts action table counts = some kept := by
  unfold keepCounts addAction
  rw [records_setRecord_self]
  cases action with
  | finalVerification => exact absurd rfl counting
  | _ => exact ⟨_, rfl⟩

/-! ### The verdict -/

/-- How the counts that were recorded for a task decide about its partitions and its table. -/
structure Compares (task : Task) : Prop where
  /-- The partitions that match, and the others, both in the order of the task. -/
  divided : task.validatePartitions = {
    succeeded := task.table.partitions.filter fun partition => task.Matched partition.key
    failed := task.table.partitions.filter fun partition => ¬ task.Matched partition.key }
  /-- Each partition is in one of the two parts, as often as the task has it. -/
  whole : (task.validatePartitions.succeeded ++ task.validatePartitions.failed).Perm
    task.table.partitions
  apart : ∀ partition ∈ task.validatePartitions.succeeded,
    partition ∉ task.validatePartitions.failed
  judged : task.validateTable = true ↔ task.Matched ""
  /-- Nothing matters but the partitions and the numbers under their keys. -/
  numbers : ∀ other : Task, other.table.partitions = task.table.partitions →
    (∀ action ∈ countings, ∀ partition ∈ task.table.partitions, ∀ number,
      other.Counted action partition.key number ↔ task.Counted action partition.key number) →
    other.validatePartitions = task.validatePartitions
  tableNumbers : ∀ other : Task, (∀ action ∈ countings, ∀ number,
      other.Counted action "" number ↔ task.Counted action "" number) →
    other.validateTable = task.validateTable
  /-- Counts under other keys have no say. -/
  keys : ∀ action counts kept,
    task.keepCounts action task.table.fullName counts = some kept →
    ((∀ partition ∈ task.table.partitions,
      counts.get? partition.key = (task.tableCounts action).get? partition.key) →
        kept.validatePartitions = task.validatePartitions) ∧
    (counts.get? "" = (task.tableCounts action).get? "" → kept.validateTable = task.validateTable)
  /-- Nor have the counts of other actions, and those for other tables. -/
  others : ∀ action table counts kept, task.keepCounts action table counts = some kept →
    action ∉ countings ∨ table ≠ task.table.fullName → SameVerdict kept task
  /-- Counts that are absent are as good as no counts, also if the action is absent. -/
  absent : ∀ action, task.rowCounts action task.table.fullName = none →
    (∀ kept, task.keepCounts action task.table.fullName [] = some kept → SameVerdict kept task) ∧
    (action ∈ countings → ∃ kept,
      (task.addAction action).keepCounts action task.table.fullName [] = some kept ∧
        SameVerdict kept task)

/-- Counts with the same texts under a key have the same numbers there. -/
theorem counted_of_get? (recorded : task.keepCounts action task.table.fullName counts = some kept)
    (same : counts.get? key = (task.tableCounts action).get? key) (other : Action) (number : Int) :
    kept.Counted other key number ↔ task.Counted other key number := by
  obtain ⟨table, mine, others⟩ := keepCounts_eq recorded
  rw [counted_iff, counted_iff]
  by_cases equal : other = action
  · subst equal
    rw [← same]
    unfold tableCounts
    rw [table, mine]
    rfl
  · unfold tableCounts
    rw [table, others other _ (.inl equal)]

/-- **The partitions that match are those for which both validations have recorded the same number;
nothing else decides about it.** -/
theorem compares (task : Task) : task.Compares where
  divided := task.validatePartitions_eq
  whole := List.filter_append_perm task.partitionAgrees task.table.partitions
  apart partition succeeded failed := by
    have agrees := (List.mem_filter.mp succeeded).2
    have differs := (List.mem_filter.mp failed).2
    rw [agrees] at differs
    cases differs
  judged := countsAgree_iff
  numbers _ := validatePartitions_eq_of_counted
  tableNumbers _ := validateTable_eq_of_counted
  keys action counts kept recorded := by
    have table := (keepCounts_eq recorded).1
    refine ⟨fun same => ?_, fun same => ?_⟩
    · exact validatePartitions_eq_of_counted (congrArg Table.partitions table)
        fun other _ partition member => counted_of_get? recorded (same partition member) other
    · exact validateTable_eq_of_counted fun other _ => counted_of_get? recorded same other
  others _ _ _ _ := sameVerdict_of_apart
  absent action absent := by
    refine ⟨fun kept => sameVerdict_of_absent absent, fun among => ?_⟩
    have counting : action.engine ≠ .validation := by
      rcases List.mem_cons.mp among with rfl | among
      · decide
      · cases List.mem_singleton.mp among
        decide
    obtain ⟨kept, recorded⟩ := keepCounts_addAction task counting task.table.fullName []
    have added := sameVerdict_addAction absent
    have absent' := (rowCounts_addAction action action task.table.fullName absent).trans absent
    have same : SameVerdict kept (task.addAction action) := sameVerdict_of_absent absent' recorded
    exact ⟨kept, recorded, same.1.trans added.1, same.2.trans added.2⟩

end Task

end TableMigration
