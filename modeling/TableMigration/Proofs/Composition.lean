/-
**Planning takes one table after the other.**

* `TokenSource.skip` leaves out characters of a stream. A table takes four of them if it has
  partitions to cut, and none otherwise (`Planner.tokens_planTable`).
* `Planner.Treats` — what planning makes of one table: a table that cannot be read is recorded as
  failed, once, and takes no character; any other table is planned as it is.
* `Planner.planEach_append` — a list is planned like its parts, one behind the other.
* `Planner.planEach_quiet` — where answers depend on the tables alone, tables that take no character
  do not show in what is planned for the others.
* `Planner.plan_composes` — all of this about whole plans.
-/

import TableMigration.Proofs.Plans

namespace TableMigration

/-! ### Streams of characters -/

namespace TokenSource

/-- Leave out so many characters. -/
def skip (count : Nat) : TokenSource → TokenSource
  | .seeded twister =>
    .seeded (Nat.iterate (fun twister => (twister.below alphabet.length tries).2) count twister)
  | .chance => .chance

theorem snd_drawChars (count : Nat) (twister : Twister) : (drawChars count twister).2 =
    Nat.iterate (fun twister => (twister.below alphabet.length tries).2) count twister := by
  induction count generalizing twister with
  | zero => rfl
  | succ more hyp =>
    rw [drawChars, Function.iterate_succ_apply]
    -- what is drawn stays closed: unfolding it would run the generator
    generalize twister.below alphabet.length tries = drawn
    exact hyp drawn.2

/-- A token takes four characters. -/
theorem snd_draw (tokens : TokenSource) : tokens.draw.2 = tokens.skip 4 := by
  cases tokens with
  | seeded twister =>
    rw [draw, skip, ← snd_drawChars]
    rfl
  | chance => rfl

theorem skip_zero (tokens : TokenSource) : tokens.skip 0 = tokens := by
  cases tokens <;> rfl

end TokenSource

/-! ### What happens to one table -/

/-- Whether an event is a call on a store. -/
def Event.isOnStore : Event → Bool
  | .configRead .. | .wrote .. => true
  | _ => false

@[simp] theorem Event.isOnStore_configRead (ref : StoreRef) (database table : String) :
    (Event.configRead ref database table).isOnStore = true := rfl

@[simp] theorem Event.isOnStore_wrote (ref : StoreRef) (write : Write) :
    (Event.wrote ref write).isOnStore = true := rfl

@[simp] theorem Event.isOnStore_notice (notice : Notice) :
    (Event.notice notice).isOnStore = false := rfl

@[simp] theorem Event.filter_told (notices : List Notice) :
    (notices.map Event.notice).filter Event.isOnStore = [] := by
  simp

/-- Whether what a store answers for a table depends on nothing else. -/
def Backend.Answers {σ : Type} (backend : Backend σ) (ref : StoreRef)
    (answer : String → String → Outcome TableConfig) : Prop :=
  ∀ database name state, (backend.config ref database name state).1 = answer database name

namespace Planner

variable {σ : Type} {backend : Backend σ} {planner : Planner} {ref : StoreRef}
  {actions : List Action} {table : Table} {tokens : TokenSource} {state : σ}

/-- How many characters are taken for the names of the tasks of a table. -/
def charsFor (table : Table) : Nat :=
  if table.isPartitioned = true ∧ table.partitions ≠ [] then 4 else 0

/-- Planning a table always gives tasks. -/
theorem tasks_planTable (planner : Planner) (table : Table) (config : TableConfig)
    (actions : List Action) (tokens : TokenSource) :
    ∃ tasks, (planner.planTable table config actions tokens).tasks = .ok tasks := by
  cases partitioned : table.isPartitioned with
  | false => exact ⟨_, by rw [planner.planTable_of_flat config actions tokens partitioned]⟩
  | true =>
    by_cases bare : table.partitions = []
    · exact ⟨_, by rw [planner.planTable_of_empty config actions tokens partitioned bare]⟩
    · exact ⟨_, by rw [planner.planTable_of_partitions config actions tokens partitioned bare]⟩

/-- A table takes the characters for one token if it has partitions. -/
theorem tokens_planTable (planner : Planner) (table : Table) (config : TableConfig)
    (actions : List Action) (tokens : TokenSource) :
    (planner.planTable table config actions tokens).tokens = tokens.skip (charsFor table) := by
  cases partitioned : table.isPartitioned with
  | false =>
    rw [planner.planTable_of_flat config actions tokens partitioned]
    simp [charsFor, partitioned, TokenSource.skip_zero]
  | true =>
    by_cases bare : table.partitions = []
    · rw [planner.planTable_of_empty config actions tokens partitioned bare]
      simp [charsFor, bare, TokenSource.skip_zero]
    · rw [planner.planTable_of_partitions config actions tokens partitioned bare]
      simp [charsFor, partitioned, bare, TokenSource.snd_draw]

/-- What planning makes of a table: without its configuration it is recorded as failed, whatever the
store says to that; with it, it is planned. -/
structure Treats (planner : Planner) (backend : Backend σ) (ref : StoreRef) (actions : List Action)
    (table : Table) (tokens : TokenSource) (state : σ) (planned : Planned σ) : Prop where
  unread : ∀ reason, (backend.config ref table.database table.name state).1 = .error reason →
    planned.tasks = [] ∧
    planned.events.filter Event.isOnStore = [.configRead ref table.database table.name,
      .wrote ref (.failure table.database table.name)] ∧
    planned.tokens = tokens ∧
    planned.state = (backend.write ref (.failure table.database table.name)
      (backend.config ref table.database table.name state).2).2
  read : ∀ config, (backend.config ref table.database table.name state).1 = .ok config →
    (planner.planTable table config actions tokens).tasks = .ok planned.tasks ∧
    planned.events.filter Event.isOnStore = [.configRead ref table.database table.name] ∧
    planned.tokens = tokens.skip (charsFor table) ∧
    planned.state = (backend.config ref table.database table.name state).2

theorem recordFailure_calls (backend : Backend σ) (ref : StoreRef) (table : Table) (state : σ) :
    (recordFailure backend ref table state).1.filter Event.isOnStore =
        [.wrote ref (.failure table.database table.name)] ∧
      (recordFailure backend ref table state).2 =
        (backend.write ref (.failure table.database table.name) state).2 := by
  unfold recordFailure
  simp only [Backend.perform]
  split <;> simp [List.filter_cons]

theorem planNext_treats (known : planner.store = some ref) (backend : Backend σ)
    (actions : List Action) (table : Table) (tokens : TokenSource) (state : σ) :
    planner.Treats backend ref actions table tokens state
      (planner.planNext backend actions table tokens state) where
  unread reason unread := by
    obtain ⟨calls, after⟩ := recordFailure_calls backend ref table
      (backend.config ref table.database table.name state).2
    unfold planNext readConfig giveUp
    simp only [known, unread]
    refine ⟨trivial, ?_, trivial, after⟩
    simp [List.filter_cons, calls]
  read config read := by
    obtain ⟨tasks, planned⟩ := planner.tasks_planTable table config actions tokens
    have rest := planner.tokens_planTable table config actions tokens
    unfold planNext readConfig
    simp only [known, read, planned]
    refine ⟨trivial, ?_, rest, trivial⟩
    simp [List.filter_cons]

/-! ### What happens to a list of tables -/

/-- A plan with another one behind it. -/
def Planned.followedBy (one two : Planned σ) : Planned σ :=
  ⟨one.tasks ++ two.tasks, one.events ++ two.events, two.tokens, two.state⟩

/-- **A list is planned like its parts**, the second one with what the first one leaves. -/
theorem planEach_append (planner : Planner) (backend : Backend σ) (actions : List Action)
    (first second : List Table) (tokens : TokenSource) (state : σ) :
    let one := planner.planEach backend actions first tokens state
    planner.planEach backend actions (first ++ second) tokens state =
      one.followedBy (planner.planEach backend actions second one.tokens one.state) := by
  induction first generalizing tokens state with
  | nil => rfl
  | cons table rest hyp =>
    simp only [List.cons_append, planEach, hyp, Planned.followedBy, List.append_assoc]

/-- One table is planned as the next one. -/
theorem planEach_singleton (planner : Planner) (backend : Backend σ) (actions : List Action)
    (table : Table) (tokens : TokenSource) (state : σ) :
    planner.planEach backend actions [table] tokens state =
      planner.planNext backend actions table tokens state := by
  simp [planEach]

section Fixed

variable {answer : String → String → Outcome TableConfig}

/-- Whether a table has nothing to cut, or cannot be read. -/
def Quiet (answer : String → String → Outcome TableConfig) (table : Table) : Prop :=
  table.isPartitioned = false ∨ table.partitions = [] ∨
    ∃ reason, answer table.database table.name = .error reason

theorem charsFor_of_quiet (quiet : Quiet answer table) {config : TableConfig}
    (read : answer table.database table.name = .ok config) : charsFor table = 0 := by
  rcases quiet with flat | empty | ⟨reason, unread⟩
  · simp [charsFor, flat]
  · simp [charsFor, empty]
  · rw [read] at unread
    cases unread

/-- What is planned for a table, and what it takes, depends on its answer alone. -/
theorem planNext_fixed (known : planner.store = some ref) (answers : backend.Answers ref answer)
    (actions : List Action) (table : Table) (tokens : TokenSource) (state other : σ) :
    (planner.planNext backend actions table tokens state).tasks =
        (planner.planNext backend actions table tokens other).tasks ∧
      (planner.planNext backend actions table tokens state).tokens =
        (planner.planNext backend actions table tokens other).tokens := by
  have treats := planNext_treats known backend actions table tokens
  cases reply : answer table.database table.name with
  | error reason =>
    obtain ⟨planned, _, same, _⟩ := (treats state).unread reason ((answers ..).trans reply)
    obtain ⟨planned', _, same', _⟩ := (treats other).unread reason ((answers ..).trans reply)
    exact ⟨planned.trans planned'.symm, same.trans same'.symm⟩
  | ok config =>
    obtain ⟨tasks, _, rest, _⟩ := (treats state).read config ((answers ..).trans reply)
    obtain ⟨tasks', _, rest', _⟩ := (treats other).read config ((answers ..).trans reply)
    exact ⟨Except.ok.inj (tasks.symm.trans tasks'), rest.trans rest'.symm⟩

/-- What is planned for a list, and what it takes, depends on the answers alone. -/
theorem planEach_fixed (known : planner.store = some ref) (answers : backend.Answers ref answer)
    (actions : List Action) (tables : List Table) (tokens : TokenSource) (state other : σ) :
    (planner.planEach backend actions tables tokens state).tasks =
        (planner.planEach backend actions tables tokens other).tasks ∧
      (planner.planEach backend actions tables tokens state).tokens =
        (planner.planEach backend actions tables tokens other).tokens := by
  induction tables generalizing tokens state other with
  | nil => exact ⟨rfl, rfl⟩
  | cons table rest hyp =>
    obtain ⟨mine, taken⟩ := planNext_fixed known answers actions table tokens state other
    simp only [planEach, mine, taken]
    obtain ⟨others, left⟩ := hyp
      (planner.planNext backend actions table tokens other).tokens
      (planner.planNext backend actions table tokens state).state
      (planner.planNext backend actions table tokens other).state
    exact ⟨congrArg _ others, left⟩

/-- **Tables that have nothing to cut, or cannot be read, take no character.** -/
theorem planEach_quiet (known : planner.store = some ref) (answers : backend.Answers ref answer)
    (actions : List Action) {tables : List Table} (quiet : ∀ table ∈ tables, Quiet answer table)
    (tokens : TokenSource) (state : σ) :
    (planner.planEach backend actions tables tokens state).tokens = tokens := by
  induction tables generalizing tokens state with
  | nil => rfl
  | cons table rest hyp =>
    obtain ⟨mine, others⟩ := List.forall_mem_cons.mp quiet
    have same : (planner.planNext backend actions table tokens state).tokens = tokens := by
      have treats := planNext_treats known backend actions table tokens state
      cases reply : answer table.database table.name with
      | error reason => exact (treats.unread reason ((answers ..).trans reply)).2.2.1
      | ok config =>
        rw [(treats.read config ((answers ..).trans reply)).2.2.1, charsFor_of_quiet mine reply,
          TokenSource.skip_zero]
    simp only [planEach, same]
    exact hyp others tokens _

end Fixed

/-! ### Whole plans -/

/-- Whether two plans differ at most in what they tell. -/
structure Planned.Alike (one two : Planned σ) : Prop where
  tasks : one.tasks = two.tasks
  calls : one.events.filter Event.isOnStore = two.events.filter Event.isOnStore
  tokens : one.tokens = two.tokens
  state : one.state = two.state

theorem Planned.Alike.followedBy {one one' two two' : Planned σ} (first : one.Alike one')
    (second : two.Alike two') : (one.followedBy two).Alike (one'.followedBy two') where
  tasks := congrArg₂ _ first.tasks second.tasks
  calls := by simp [Planned.followedBy, first.calls, second.calls]
  tokens := second.tokens
  state := second.state

theorem Treats.of_alike {one two : Planned σ}
    (treats : planner.Treats backend ref actions table tokens state one) (alike : two.Alike one) :
    planner.Treats backend ref actions table tokens state two := by
  obtain ⟨tasks, calls, rest, after⟩ := alike
  refine ⟨fun reason unread => ?_, fun config read => ?_⟩
  · rw [tasks, calls, rest, after]
    exact treats.unread reason unread
  · rw [tasks, calls, rest, after]
    exact treats.read config read

/-- A plan for some actions does what planning its tables one after the other does. -/
theorem plan_alike (planner : Planner) (backend : Backend σ) (requested : actions ≠ [])
    (tables : List Table) (tokens : TokenSource) (state : σ) :
    ∃ planned, planner.plan backend tables actions tokens state = .ok planned ∧
      planned.Alike (planner.planEach backend actions tables tokens state) := by
  rw [planner.plan_of_actions backend requested]
  exact ⟨_, rfl, rfl, by simp, rfl, rfl⟩

/-- **Plans are composed of the plans for single tables.** -/
theorem plan_composes (known : planner.store = some ref) (requested : actions ≠ [])
    (backend : Backend σ) (tokens : TokenSource) (state : σ) :
    (∀ first second, ∃ one two both,
      planner.plan backend first actions tokens state = .ok one ∧
      planner.plan backend second actions one.tokens one.state = .ok two ∧
      planner.plan backend (first ++ second) actions tokens state = .ok both ∧
      both.Alike (one.followedBy two)) ∧
    (∀ table, ∃ planned, planner.plan backend [table] actions tokens state = .ok planned ∧
      planner.Treats backend ref actions table tokens state planned) ∧
    ∀ answer, backend.Answers ref answer → ∀ first second quiet,
      (∀ table ∈ quiet, Quiet answer table) → ∃ one more rest without within,
      planner.plan backend first actions tokens state = .ok one ∧
      planner.plan backend quiet actions one.tokens one.state = .ok more ∧
      planner.plan backend (first ++ second) actions tokens state = .ok without ∧
      planner.plan backend (first ++ quiet ++ second) actions tokens state = .ok within ∧
      without.tasks = one.tasks ++ rest ∧ within.tasks = one.tasks ++ more.tasks ++ rest ∧
      within.tokens = without.tokens := by
  have plans := planner.plan_alike backend requested
  refine ⟨fun first second => ?_, fun table => ?_, fun answer answers first second quiet soft => ?_⟩
  · obtain ⟨one, planned, alike⟩ := plans first tokens state
    obtain ⟨two, planned', alike'⟩ := plans second one.tokens one.state
    obtain ⟨both, planned'', alike''⟩ := plans (first ++ second) tokens state
    obtain ⟨tasks, calls, rest, after⟩ := alike.followedBy alike'
    rw [planEach_append, ← alike.tokens, ← alike.state] at alike''
    exact ⟨one, two, both, planned, planned', planned'', alike''.tasks.trans tasks.symm,
      alike''.calls.trans calls.symm, alike''.tokens.trans rest.symm,
      alike''.state.trans after.symm⟩
  · obtain ⟨planned, plan, alike⟩ := plans [table] tokens state
    rw [planEach_singleton] at alike
    exact ⟨planned, plan, (planNext_treats known ..).of_alike alike⟩
  · obtain ⟨one, planned, alike⟩ := plans first tokens state
    obtain ⟨more, planned', alike'⟩ := plans quiet one.tokens one.state
    obtain ⟨without, plan, short⟩ := plans (first ++ second) tokens state
    obtain ⟨within, plan', long⟩ := plans (first ++ quiet ++ second) tokens state
    have same := planEach_quiet known answers actions soft one.tokens one.state
    obtain ⟨tasks, rest⟩ := planEach_fixed known answers actions second one.tokens
      (planner.planEach backend actions quiet one.tokens one.state).state one.state
    rw [planEach_append, ← alike.tokens, ← alike.state] at short
    rw [planEach_append, planEach_append, ← alike.tokens, ← alike.state] at long
    simp only [Planned.followedBy, same] at short long
    refine ⟨one, more, (planner.planEach backend actions second one.tokens one.state).tasks,
      without, within, planned, planned', plan, plan', ?_, ?_, ?_⟩
    · rw [short.tasks, alike.tasks]
    · rw [long.tasks, tasks, alike.tasks, alike'.tasks]
    · rw [long.tokens, short.tokens, rest]

/-- A store that does not know one table, and takes no write. -/
def pickyBackend : Backend Unit where
  config _ _ name _ := (if name = "lost" then .error "no such table" else .ok ⟨some 1⟩, ())
  write _ _ _ := (⟨.error "read only", []⟩, ())

/-- A planner that asks a store. -/
def askingPlanner : Planner := ⟨some 0, .failed⟩

/-- A table with two partitions, under some name. -/
def cutTable (name : String) : Table :=
  ⟨"sales", name, ["day"], [⟨["mon"]⟩, ⟨["tue"]⟩]⟩

/-- A flat table, one that is lost, and one without partitions. -/
def softTables : List Table :=
  [⟨"sales", "flat", [], []⟩, cutTable "lost", ⟨"sales", "bare", ["day"], []⟩]

theorem plan_composes_picky :
    askingPlanner.store = some 0 ∧ [Action.extract] ≠ [] ∧
    ∃ one more rest without within,
      askingPlanner.plan pickyBackend [cutTable "first"] [.extract] (.seeded (.seed 7)) () =
        .ok one ∧
      askingPlanner.plan pickyBackend softTables [.extract] one.tokens one.state = .ok more ∧
      askingPlanner.plan pickyBackend ([cutTable "first"] ++ [cutTable "second"]) [.extract]
        (.seeded (.seed 7)) () = .ok without ∧
      askingPlanner.plan pickyBackend ([cutTable "first"] ++ softTables ++ [cutTable "second"])
        [.extract] (.seeded (.seed 7)) () = .ok within ∧
      without.tasks = one.tasks ++ rest ∧ within.tasks = one.tasks ++ more.tasks ++ rest ∧
      within.tokens = without.tokens := by
  have known : askingPlanner.store = some 0 := rfl
  have busy : [Action.extract] ≠ [] := by decide
  have answers : pickyBackend.Answers 0 fun _ name =>
      if name = "lost" then .error "no such table" else .ok ⟨some 1⟩ := fun _ _ _ => rfl
  refine ⟨known, busy, (plan_composes known busy pickyBackend _ _).2.2 _ answers _ _ _ ?_⟩
  simp [softTables, cutTable, Quiet, Table.isPartitioned]

end Planner

end TableMigration
