/-
**Actions, engines, progress and status.**

* Each of the seven actions runs on one engine and has a priority; the two validations share one
  (`Action.priority`, `Action.engine`).
* `Action.before` orders actions by priority and then by their place in `Action.all`;
  `Action.ordered` lists a set of actions in that order.
* Names are read back by `parse?`. A number that stands for none of the constructors is shown as
  `UNKNOWN` (`Coded`).
-/

namespace TableMigration

/-! ### Engines -/

/-- Where an action runs. -/
inductive Engine where
  | source
  | destination
  | validation
  deriving DecidableEq, Inhabited

/-- Every engine, in the order in which their pools are started and stopped. -/
def Engine.all : List Engine :=
  [.source, .destination, .validation]

/-- The name of an engine. -/
def Engine.name : Engine → String
  | .source => "SOURCE"
  | .destination => "DESTINATION"
  | .validation => "VALIDATION"

/-- The name of the worker pool that serves an engine. -/
def Engine.poolName : Engine → String
  | .source => "source"
  | .destination => "destination"
  | .validation => "validation"

/-! ### Actions -/

/-- One step of a migration. -/
inductive Action where
  | createTable
  | addPartition
  | extract
  | load
  | sourceValidate
  | destinationValidate
  | finalVerification
  deriving DecidableEq, Inhabited

namespace Action

/-- Every action. -/
def all : List Action :=
  [.createTable, .addPartition, .extract, .load, .sourceValidate, .destinationValidate,
    .finalVerification]

/-- The place of an action in `all`. -/
def index : Action → Nat
  | .createTable => 0
  | .addPartition => 1
  | .extract => 2
  | .load => 3
  | .sourceValidate => 4
  | .destinationValidate => 5
  | .finalVerification => 6

/-- An action waits for all actions of the same task that have a lower priority. -/
def priority : Action → Nat
  | .createTable => 0
  | .addPartition => 1
  | .extract => 2
  | .load => 3
  | .sourceValidate => 4
  | .destinationValidate => 4
  | .finalVerification => 5

/-- The engine an action runs on. -/
def engine : Action → Engine
  | .extract | .sourceValidate => .source
  | .createTable | .addPartition | .load | .destinationValidate => .destination
  | .finalVerification => .validation

/-- The name of an action. -/
def name : Action → String
  | .createTable => "DESTINATION_CREATE_TABLE"
  | .addPartition => "DESTINATION_ADD_PARTITION"
  | .extract => "SOURCE_EXTRACT"
  | .load => "DESTINATION_LOAD"
  | .sourceValidate => "SOURCE_VALIDATE"
  | .destinationValidate => "DESTINATION_VALIDATE"
  | .finalVerification => "FINAL_VERIFICATION"

/-- The action of that name. -/
def parse? (text : String) : Option Action :=
  all.find? fun action => action.name == text

/-- Lower priority first, and at equal priority the place in `all`. -/
def before (first second : Action) : Bool :=
  if first.priority = second.priority then first.index < second.index
  else first.priority < second.priority

/-- The actions of a list, each once, in order. -/
def ordered (actions : List Action) : List Action :=
  all.filter fun action => actions.contains action

theorem mem_all (action : Action) : action ∈ all := by
  cases action <;> decide

/-- The places in `all` are already the places in the order. -/
theorem all_pairwise_before : all.Pairwise fun first second => first.before second = true := by
  decide

theorem mem_ordered {actions : List Action} {action : Action} :
    action ∈ ordered actions ↔ action ∈ actions := by
  simp [ordered, mem_all]

theorem ordered_pairwise_before (actions : List Action) :
    (ordered actions).Pairwise fun first second => first.before second = true :=
  all_pairwise_before.sublist List.filter_sublist

end Action

/-! ### Progress and status -/

/-- How far an action, or a whole task, has come. -/
inductive Progress where
  | new
  | running
  | succeeded
  | failed
  deriving DecidableEq, Inhabited

namespace Progress

/-- Every progress. -/
def all : List Progress :=
  [.new, .running, .succeeded, .failed]

/-- The name of a progress. -/
def name : Progress → String
  | .new => "NEW"
  | .running => "RUNNING"
  | .succeeded => "SUCCEEDED"
  | .failed => "FAILED"

/-- The progress of that name. -/
def parse? (text : String) : Option Progress :=
  all.find? fun progress => progress.name == text

/-- Whether nothing more is to come. -/
def isTerminal : Progress → Bool
  | .succeeded | .failed => true
  | .new | .running => false

end Progress

/-- What the store says about a table or a partition. -/
inductive Status where
  | pending
  | running
  | succeeded
  | failed
  deriving DecidableEq, Inhabited

namespace Status

/-- Every status. -/
def all : List Status :=
  [.pending, .running, .succeeded, .failed]

/-- The name of a status. -/
def name : Status → String
  | .pending => "PENDING"
  | .running => "RUNNING"
  | .succeeded => "SUCCEEDED"
  | .failed => "FAILED"

/-- The status of that name. -/
def parse? (text : String) : Option Status :=
  all.find? fun status => status.name == text

end Status

/-! ### Codes -/

namespace Coded

/-- The constructor a number stands for: the list is numbered from zero, and a number counts as the
32-bit word it wraps to. -/
def decode? {α : Type} (constructors : List α) (code : Int) : Option α :=
  let word := (Int32.ofInt code).toInt
  if word < 0 then none else constructors[word.toNat]?

/-- The name of a number that may stand for no constructor. -/
def name {α : Type} (nameOf : α → String) (decoded : Option α) : String :=
  decoded.elim "UNKNOWN" nameOf

/-- The priority of a number that may stand for no action. -/
def priority (decoded : Option Action) : Nat :=
  decoded.elim 0 Action.priority

/-- The engine of a number that may stand for no action. -/
def engine (decoded : Option Action) : Engine :=
  decoded.elim .validation Action.engine

/-- Whether a number that may stand for no progress is terminal. -/
def isTerminal (decoded : Option Progress) : Bool :=
  decoded.elim false Progress.isTerminal

end Coded

end TableMigration
