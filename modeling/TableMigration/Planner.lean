/-
**Planning: from tables to tasks.**

* A table without partition columns becomes one task with every requested action except adding
  partitions. A partitioned table that has no partition yet becomes one task that only creates the
  table.
* Any other table is cut, in order, into groups of as many partitions as its configuration asks for
  (`Planner.groups`), one task a group. The names of these tasks carry a token that is drawn once
  for the table, so that the tasks of two attempts have different names.
* A table whose configuration cannot be read is recorded as failed and gives no task
  (`Planner.planNext`). The other tables are planned all the same.
-/

import TableMigration.Task
import TableMigration.Twister

namespace TableMigration

/-! ### Tokens -/

/-- Where tokens come from. -/
inductive TokenSource where
  /-- A stream that a seed started. -/
  | seeded (twister : Twister)
  /-- Chance. What it draws belongs to no answer, and a placeholder stands for it. -/
  | chance

namespace TokenSource

/-- The characters of a token. -/
def alphabet : List Char :=
  "ABCDEFGHIJKLMNOPQRSTUVWXYZ0123456789".toList

/-- How many characters a token has. -/
def tokenLength : Nat := 4

/-- How many words may be given up for one character. One word in a billion is given up, so that a
draw comes nowhere near this number. -/
def tries : Nat := 1248

/-- Draw some characters. -/
def drawChars : Nat → Twister → List Char × Twister
  | 0, twister => ([], twister)
  | more + 1, twister =>
    let (place, twister) := twister.below alphabet.length tries
    let (chars, twister) := drawChars more twister
    (alphabet.getD place 'A' :: chars, twister)

/-- Draw a token. -/
def draw : TokenSource → String × TokenSource
  | .seeded twister =>
    let (chars, twister) := drawChars tokenLength twister
    (String.ofList chars, .seeded twister)
  | .chance => ("????", .chance)

end TokenSource

/-! ### Plans -/

/-- Why there is no plan. -/
inductive PlanError where
  | noAction
  | invalidGroupSize (size : Int)
  deriving DecidableEq

/-- The failure that is raised for an error. -/
def PlanError.failure : PlanError → Failure
  | .noAction => ⟨.invalidArgument, "No action requested"⟩
  | .invalidGroupSize size => ⟨.invalidArgument, s!"Invalid partition group size: {size}"⟩

/-- The text of an error. -/
def PlanError.message (error : PlanError) : String :=
  error.failure.what

/-- What the tasks of all tables have in common. -/
structure Planner where
  store : Option StoreRef
  /-- The status recorded for the matching partitions when a verification has failed. -/
  failureStatus : Status

namespace Planner

/-- Cut a list into groups of a size, in order. The last group may be smaller. -/
def groups {α : Type} (size : Nat) (items : List α) : List (List α) :=
  if size = 0 ∨ items = [] then []
  else items.take size :: groups size (items.drop size)
termination_by items.length
decreasing_by
  rename_i proper
  have filled : 0 < items.length := List.length_pos_iff.mpr fun empty => proper (.inr empty)
  simp only [List.length_drop]
  omega

/-- Nothing is lost, repeated or moved by cutting. -/
theorem flatten_groups {α : Type} {size : Nat} (positive : 0 < size) (items : List α) :
    (groups size items).flatten = items := by
  fun_induction groups size items with
  | case1 items none =>
    rcases none with zero | empty
    · omega
    · simp [empty]
  | case2 items _ hyp => simp [hyp]

/-- No group is empty. -/
theorem ne_nil_of_mem_groups {α : Type} {size : Nat} {items group : List α}
    (member : group ∈ groups size items) : group ≠ [] := by
  fun_induction groups size items with
  | case1 items none => simp at member
  | case2 items proper hyp =>
    rcases List.mem_cons.mp member with same | later
    · subst same
      intro empty
      have cut := List.take_eq_nil_iff.mp empty
      exact proper cut
    · exact hyp later

/-- How many partitions a task gets, of a table with so many of them. A size that is not positive
counts as none. -/
def groupSize (config : TableConfig) (count : Nat) : Int :=
  match config.groupSize with
  | some size => if 0 < size then size else count
  | none => count

/-- A task with some actions, all new. -/
def task (planner : Planner) (name : String) (table : Table) (config : TableConfig)
    (actions : List Action) : Task :=
  (Task.create name table config planner.store planner.failureStatus).addActions actions

/-- The tasks for the groups of a table, numbered from zero. -/
def groupTasks (planner : Planner) (table : Table) (config : TableConfig) (actions : List Action)
    (stem : String) (cut : List (List Partition)) : List Task :=
  cut.zipIdx.map fun (group, number) =>
    planner.task s!"{stem}.{number}" { table with partitions := group } config actions

/-- What planning one table gives: tasks or an error, what it tells, and the rest of the tokens. -/
structure TablePlan where
  tasks : Except PlanError (List Task)
  notices : List Notice
  tokens : TokenSource

/-- Plan one table. -/
def planTable (planner : Planner) (table : Table) (config : TableConfig) (actions : List Action)
    (tokens : TokenSource) : TablePlan :=
  if !table.isPartitioned then
    let kept := actions.filter fun action => action != .addPartition
    ⟨.ok [planner.task table.fullName table config kept], [], tokens⟩
  else if table.partitions.isEmpty then
    ⟨.ok [planner.task table.fullName table config [.createTable]],
      [.nothingToMove table.database table.name], tokens⟩
  else
    let size := groupSize config table.partitions.length
    if size ≤ 0 then ⟨.error (.invalidGroupSize size), [], tokens⟩
    else
      let (token, tokens) := tokens.draw
      let cut := groups size.toNat table.partitions
      ⟨.ok (planner.groupTasks table config actions s!"{table.fullName}.{token}" cut), [], tokens⟩

/-- Record that a table could not be planned. A store that refuses is only reported. -/
def recordFailure {σ : Type} (backend : Backend σ) (store : StoreRef) (table : Table) (state : σ) :
    List Event × σ :=
  let (outcome, events, state) :=
    backend.perform store (.failure table.database table.name) state
  match outcome with
  | .ok _ => (events, state)
  | .error reason => (events ++ [.notice (.failureUnrecorded table.fullName reason)], state)

/-- Read what is set for a table. Without a store nothing is set. -/
def readConfig {σ : Type} (backend : Backend σ) (planner : Planner) (table : Table) (state : σ) :
    Outcome TableConfig × List Event × σ :=
  match planner.store with
  | none => (.ok default, [], state)
  | some store =>
    let (outcome, state) := backend.config store table.database table.name state
    (outcome, [.configRead store table.database table.name], state)

/-- What planning some tables gives. -/
structure Planned (σ : Type) where
  tasks : List Task
  events : List Event
  tokens : TokenSource
  state : σ

/-- Give a table up: report why, and record it as failed. -/
def giveUp {σ : Type} (backend : Backend σ) (planner : Planner) (table : Table) (notice : Notice)
    (tokens : TokenSource) (state : σ) : Planned σ :=
  match planner.store with
  | none => ⟨[], [.notice notice], tokens, state⟩
  | some store =>
    let (events, state) := recordFailure backend store table state
    ⟨[], .notice notice :: events, tokens, state⟩

/-- Plan the next table with the configuration that the store has for it. -/
def planNext {σ : Type} (backend : Backend σ) (planner : Planner) (actions : List Action)
    (table : Table) (tokens : TokenSource) (state : σ) : Planned σ :=
  let (outcome, read, state) := planner.readConfig backend table state
  match outcome with
  | .error reason =>
    let given := planner.giveUp backend table (.configUnknown table.fullName reason) tokens state
    { given with events := read ++ given.events }
  | .ok config =>
    let plan := planner.planTable table config actions tokens
    let told := read ++ plan.notices.map .notice
    match plan.tasks with
    | .ok tasks => ⟨tasks, told, plan.tokens, state⟩
    | .error error =>
      let given := planner.giveUp backend table (.planFailed table.fullName error.message)
        plan.tokens state
      { given with events := told ++ given.events }

/-- Plan tables one after the other. -/
def planEach {σ : Type} (backend : Backend σ) (planner : Planner) (actions : List Action) :
    List Table → TokenSource → σ → Planned σ
  | [], tokens, state => ⟨[], [], tokens, state⟩
  | table :: rest, tokens, state =>
    let first := planner.planNext backend actions table tokens state
    let later := planner.planEach backend actions rest first.tokens first.state
    ⟨first.tasks ++ later.tasks, first.events ++ later.events, later.tokens, later.state⟩

/-- Plan tables for a set of actions, which must not be empty. -/
def plan {σ : Type} (backend : Backend σ) (planner : Planner) (tables : List Table)
    (actions : List Action) (tokens : TokenSource) (state : σ) : Except PlanError (Planned σ) :=
  if actions.isEmpty then .error .noAction
  else
    let planned := planner.planEach backend actions tables tokens state
    .ok { planned with
      events := planned.events ++ [.notice (.planned (planned.tasks.map Task.name))] }

end Planner

end TableMigration
