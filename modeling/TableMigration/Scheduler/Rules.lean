/-
**Engines that follow rules.**

* A `Rule` says what an engine returns for some actions: those that fit its action, the full name
  of its table and the key of one of its partitions, as far as it names them.
* `Rules.reply` follows the first rule that fits. Where none does the action succeeds, and a
  validation counts one hundred rows for everything (`Rules.default`).
-/

import TableMigration.Scheduler

namespace TableMigration

/-- What an engine returns for the actions that fit. -/
structure Rule where
  action : Option Action
  fullName : Option String
  partitionKey : Option String
  reply : EngineReply

namespace Rule

/-- Whether a rule is about an action of a task. -/
def fits (rule : Rule) (task : Task) (action : Action) : Bool :=
  rule.action.all (· == action)
    && rule.fullName.all (· == task.table.fullName)
    && rule.partitionKey.all fun key =>
      task.table.partitions.any fun partition => partition.key == key

end Rule

namespace Rules

/-- The same count for every partition of a table, and for the table itself if it is not
partitioned. -/
def uniformCounts (table : Table) (count : String) : RowCounts :=
  let partitions := table.partitions.map fun partition => (partition.key, count)
  let whole := if table.isPartitioned then [] else [("", count)]
  Keyed.ofList (partitions ++ whole)

/-- What an engine returns where no rule fits. -/
def default (task : Task) (action : Action) : Execution :=
  match action with
  | .sourceValidate | .destinationValidate =>
    { Execution.succeed with counts := some (uniformCounts task.table "100") }
  | _ => .succeed

/-- What an engine returns. -/
def reply (rules : List Rule) (task : Task) (action : Action) : EngineReply :=
  match rules.find? fun rule => rule.fits task action with
  | some rule => rule.reply
  | none => .returned (default task action)

/-- Engines that follow rules, with some stores beside them. -/
def engines {σ : Type} (backend : Backend σ) (rules : List Rule) : Engines σ where
  backend := backend
  call _ _ task action state := (reply rules task action, state)

end Rules

end TableMigration
