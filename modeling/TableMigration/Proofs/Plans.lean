/-
**What planning makes of registered tables.**

* `Memory.addTables_ok` — tables that were added one after the other are registered with valid
  configurations, under different full names.
* `Planner.Covers` — a table is covered by tasks that move some of it each, and all of it together
  (`Planner.planTable_covers`).
* `Planner.plan_covers` — planning registered tables succeeds, leaves the stores as they are, and
  covers every table.
-/

import TableMigration.Planner
import TableMigration.Proofs.Calls
import TableMigration.Proofs.Rows

namespace TableMigration

/-- The keys under which a table is counted: those of its partitions, or the empty one for the whole
table. -/
def Table.keys (table : Table) : List String :=
  if table.isPartitioned then table.partitions.map Partition.key else [""]

/-! ### Registered tables -/

namespace Memory

variable {memory after : Memory} {table : Table} {config : TableConfig} {name : String}
  {entry : TableRow}

/-- Whether a table has the rows with which it was registered, and a valid configuration. -/
def Registered (memory : Memory) (table : Table) : Prop :=
  ∃ config : TableConfig, memory.tables.get? table.fullName = some (.register table config) ∧
    ∀ size, config.groupSize = some size → 0 < size

/-- Register tables one after the other. -/
def addTables (memory : Memory) (entries : List (Table × TableConfig)) : Except StoreError Memory :=
  entries.foldlM (fun memory entry => memory.addTable entry.1 entry.2) memory

/-- A table that can be added is new to the memory, and its configuration is valid. -/
theorem addTable_ok (added : memory.addTable table config = .ok after) :
    after = memory.put table.database table.name (.register table config) ∧
      memory.tables.get? table.fullName = none ∧
      ∀ size, config.groupSize = some size → 0 < size := by
  have register : addTable.register memory table config = .ok after →
      after = memory.put table.database table.name (.register table config) ∧
        memory.tables.get? table.fullName = none := by
    intro added
    unfold addTable.register at added
    split at added
    · cases added
    · rename_i new
      cases added
      refine ⟨rfl, ?_⟩
      simpa [Keyed.contains] using new
  unfold addTable at added
  split at added
  · rename_i size set
    split at added
    · cases added
    · rename_i positive
      obtain ⟨same, new⟩ := register added
      refine ⟨same, new, fun size' set' => ?_⟩
      cases set.symm.trans set'
      omega
  · rename_i set
    obtain ⟨same, new⟩ := register added
    exact ⟨same, new, fun size set' => by rw [set] at set'; cases set'⟩

/-- **Tables that were added are registered**, under names that are new and different. -/
theorem addTables_ok {entries : List (Table × TableConfig)}
    (added : memory.addTables entries = .ok after) :
    after.retryLimit = memory.retryLimit ∧
      (∀ name entry, memory.tables.get? name = some entry →
        after.tables.get? name = some entry) ∧
      (∀ entry ∈ entries, memory.tables.get? entry.1.fullName = none ∧
        after.Registered entry.1) ∧
      (entries.map fun entry => entry.1.fullName).Nodup := by
  induction entries generalizing memory with
  | nil =>
    cases added
    exact ⟨rfl, fun _ _ => id, List.forall_mem_nil _, List.nodup_nil⟩
  | cons first rest hyp =>
    unfold addTables at added
    rw [List.foldlM_cons] at added
    cases began : memory.addTable first.1 first.2 with
    | error =>
      rw [began] at added
      cases added
    | ok middle =>
      rw [began] at added
      obtain ⟨rfl, new, valid⟩ := addTable_ok began
      obtain ⟨limit, kept, registered, distinct⟩ := hyp added
      have put : ∀ name, name ≠ first.1.fullName →
          (memory.put first.1.database first.1.name (.register first.1 first.2)).tables.get? name =
            memory.tables.get? name :=
        fun name apart => Keyed.get?_put_of_ne _ _ (Ne.symm apart)
      have mine : (memory.put first.1.database first.1.name
          (.register first.1 first.2)).tables.get? first.1.fullName =
            some (.register first.1 first.2) := Keyed.get?_put_self ..
      have others : ∀ entry ∈ rest, entry.1.fullName ≠ first.1.fullName := by
        intro entry member same
        have unplanned := (registered entry member).1
        rw [same, mine] at unplanned
        cases unplanned
      refine ⟨limit, fun name entry found => ?_, fun entry member => ?_, ?_⟩
      · refine kept name entry ?_
        rw [put name fun same => ?_, found]
        rw [same, new] at found
        cases found
      · rcases List.mem_cons.mp member with rfl | behind
        · exact ⟨new, entry.2, kept _ _ mine, valid⟩
        · obtain ⟨unplanned, there⟩ := registered entry behind
          exact ⟨(put _ (others entry behind)).symm.trans unplanned, there⟩
      · rw [List.map_cons, List.nodup_cons]
        refine ⟨fun member => ?_, distinct⟩
        obtain ⟨entry, behind, same⟩ := List.mem_map.mp member
        exact others entry behind same

/-- Some of the tables that were added are registered, and are told apart by their full names. -/
theorem addTables_among {entries : List (Table × TableConfig)} {tables : List Table}
    (added : memory.addTables entries = .ok after)
    (among : ∀ table ∈ tables, ∃ config, (table, config) ∈ entries) :
    after.retryLimit = memory.retryLimit ∧ (∀ table ∈ tables, after.Registered table) ∧
      ∀ first ∈ tables, ∀ second ∈ tables, first.fullName = second.fullName → first = second := by
  obtain ⟨limit, _, registers, names⟩ := addTables_ok added
  refine ⟨limit, fun table member => ?_, fun first member second member' same => ?_⟩
  · obtain ⟨config, entry⟩ := among table member
    exact (registers _ entry).2
  · obtain ⟨config, entry⟩ := among first member
    obtain ⟨config', entry'⟩ := among second member'
    exact congrArg Prod.fst (List.inj_on_of_nodup_map names entry entry' same)

end Memory

/-! ### Tasks of a table -/

/-- Whether a task can be verified: it has both validations if it has the final verification, and
nothing to count otherwise. -/
structure Task.Verifiable (task : Task) : Prop where
  busy : task.actions ≠ []
  counts : task.has .finalVerification = true →
    task.has .sourceValidate = true ∧ task.has .destinationValidate = true
  empty : task.has .finalVerification = false → task.table.keys = []

/-- Adding actions changes nothing of a task but its records. -/
theorem Task.addActions_frame (task : Task) (actions : List Action) :
    task.addActions actions = { task with records := (task.addActions actions).records } := by
  induction actions generalizing task with
  | nil => rfl
  | cons action rest hyp => exact hyp (task.addAction action)

namespace Planner

variable {planner : Planner} {table : Table} {config : TableConfig} {actions : List Action}
  {tasks : List Task}

/-- Whether a task is there to move some of a table, and to verify what it moves. -/
structure Part (planner : Planner) (table : Table) (task : Task) : Prop where
  store : task.store = planner.store
  failureStatus : task.failureStatus = planner.failureStatus
  database : task.table.database = table.database
  name : task.table.name = table.name
  partitioned : task.table.isPartitioned = table.isPartitioned
  keys : ∀ key ∈ task.table.keys, key ∈ table.keys
  verifiable : task.Verifiable

theorem Part.of_sameKind {task after : Task} (part : planner.Part table task)
    (kind : after.SameKind task) : planner.Part table after where
  store := kind.store.trans part.store
  failureStatus := kind.failureStatus.trans part.failureStatus
  database := kind.table ▸ part.database
  name := kind.table ▸ part.name
  partitioned := kind.table ▸ part.partitioned
  keys := kind.table ▸ part.keys
  verifiable := by
    obtain ⟨busy, counts, empty⟩ := part.verifiable
    refine ⟨kind.actions ▸ busy, ?_, ?_⟩ <;> simp only [kind.has, kind.table] <;> assumption

theorem Part.fullName {task : Task} (part : planner.Part table task) :
    task.table.fullName = table.fullName := by
  unfold Table.fullName
  rw [part.database, part.name]

/-- Whether some tasks move a table, all of it together. -/
structure Covers (planner : Planner) (table : Table) (tasks : List Task) : Prop where
  fresh : ∀ task ∈ tasks, task.Fresh
  part : ∀ task ∈ tasks, planner.Part table task
  filled : tasks ≠ []
  keys : ∀ key ∈ table.keys, ∃ task ∈ tasks, key ∈ task.table.keys

/-- Whether some actions are enough to verify what they move. -/
def Verifies (actions : List Action) : Prop :=
  .sourceValidate ∈ actions ∧ .destinationValidate ∈ actions ∧ .finalVerification ∈ actions

/-- The task that the planner makes is the one that was created, but for its records. -/
theorem task_frame (planner : Planner) (name : String) (table : Table) (config : TableConfig)
    (actions : List Action) : planner.task name table config actions =
      { Task.create name table config planner.store planner.failureStatus with
        records := (planner.task name table config actions).records } :=
  Task.addActions_frame ..

theorem table_task (planner : Planner) (name : String) (table : Table) (config : TableConfig)
    (actions : List Action) : (planner.task name table config actions).table = table := by
  rw [task_frame]
  rfl

theorem name_task (planner : Planner) (name : String) (table : Table) (config : TableConfig)
    (actions : List Action) : (planner.task name table config actions).name = name := by
  rw [task_frame]
  rfl

theorem has_task (planner : Planner) (name : String) (table : Table) (config : TableConfig)
    (actions : List Action) (action : Action) :
    (planner.task name table config actions).has action = decide (action ∈ actions) := by
  unfold task
  rw [Task.has_eq, Task.actionProgress_addActions]
  split <;> simp_all
  rfl

theorem fresh_task (planner : Planner) (name : String) (table : Table) (config : TableConfig)
    (actions : List Action) : (planner.task name table config actions).Fresh :=
  (Task.fresh_create _ _ _ _ _).addActions _

/-- Whether some actions are enough for a table: they verify it, or it has nothing to verify. -/
def Suffice (actions : List Action) (table : Table) : Prop :=
  Verifies actions ∨ actions ≠ [] ∧ .finalVerification ∉ actions ∧ table.keys = []

theorem verifiable_task (name : String) (config : TableConfig) (suffice : Suffice actions table) :
    (planner.task name table config actions).Verifiable := by
  have has := planner.has_task name table config actions
  have busy : actions ≠ [] := by
    rcases suffice with ⟨member, _⟩ | ⟨busy, _⟩
    · exact List.ne_nil_of_mem member
    · exact busy
  refine ⟨?_, fun verified => ?_, fun unverified => ?_⟩
  · obtain ⟨action, member⟩ := List.exists_mem_of_ne_nil _ busy
    exact List.ne_nil_of_mem (Task.mem_actions.mpr ((has action).trans (decide_eq_true member)))
  · rw [has] at verified ⊢
    rw [has]
    rcases suffice with ⟨source, destination, _⟩ | ⟨_, absent, _⟩
    · exact ⟨decide_eq_true source, decide_eq_true destination⟩
    · exact absurd (of_decide_eq_true verified) absent
  · rw [has] at unverified
    rw [table_task]
    rcases suffice with ⟨_, _, last⟩ | ⟨_, _, keys⟩
    · exact absurd last (of_decide_eq_false unverified)
    · exact keys

/-- A task for some of a table is a part of it. -/
theorem part_task {part : Table} (name : String) (config : TableConfig)
    (suffice : Suffice actions part) (database : part.database = table.database)
    (same : part.name = table.name) (partitioned : part.isPartitioned = table.isPartitioned)
    (keys : ∀ key ∈ part.keys, key ∈ table.keys) :
    planner.Part table (planner.task name part config actions) := by
  have mine := planner.table_task name part config actions
  have frame := planner.task_frame name part config actions
  exact ⟨congrArg Task.store frame, congrArg Task.failureStatus frame, by rw [mine, database],
    by rw [mine, same], by rw [mine, partitioned], by rwa [mine],
    verifiable_task name config suffice⟩

/-- A table whose partitions are cut into groups is covered by the tasks for the groups. -/
theorem groupTasks_covers (verifies : Verifies actions) (partitioned : table.isPartitioned = true)
    (filled : table.partitions ≠ []) {cut : List (List Partition)} {stem : String}
    (whole : cut.flatten = table.partitions) :
    planner.Covers table (planner.groupTasks table config actions stem cut) := by
  have keys : ∀ group, Table.keys { table with partitions := group } = group.map Partition.key :=
    fun group => if_pos partitioned
  refine ⟨fun task member => ?_, fun task member => ?_, fun empty => ?_, fun key member => ?_⟩
  · obtain ⟨_, _, rfl⟩ := List.mem_map.mp member
    exact planner.fresh_task ..
  · obtain ⟨⟨group, number⟩, numbered, rfl⟩ := List.mem_map.mp member
    refine part_task _ _ (.inl verifies) rfl rfl rfl fun key mine => ?_
    rw [keys] at mine
    have among : group ∈ cut := List.mem_of_getElem? (List.mem_zipIdx_iff_getElem?.mp numbered)
    obtain ⟨partition, grouped, rfl⟩ := List.mem_map.mp mine
    unfold Table.keys
    rw [if_pos partitioned, ← whole]
    exact List.mem_map_of_mem (List.mem_flatten_of_mem among grouped)
  · have uncut : cut = [] := List.zipIdx_eq_nil_iff.mp (List.map_eq_nil_iff.mp empty)
    rw [uncut] at whole
    exact filled whole.symm
  · unfold Table.keys at member
    rw [if_pos partitioned, ← whole] at member
    obtain ⟨partition, among, rfl⟩ := List.mem_map.mp member
    obtain ⟨group, grouped, mine⟩ := List.mem_flatten.mp among
    obtain ⟨number, found⟩ := List.mem_iff_getElem?.mp grouped
    have numbered : (group, number) ∈ cut.zipIdx := List.mem_zipIdx_iff_getElem?.mpr found
    refine ⟨_, List.mem_map_of_mem numbered, ?_⟩
    rw [table_task, keys]
    exact List.mem_map_of_mem mine

/-- Groups of the partitions of a table have at least one. -/
theorem groupSize_pos (config : TableConfig) {count : Nat} (positive : 0 < count) :
    0 < groupSize config count := by
  unfold groupSize
  split
  · split
    · assumption
    · exact Int.natCast_pos.mpr positive
  · exact Int.natCast_pos.mpr positive

/-- A table without partition columns gets one task, which adds no partition. -/
theorem planTable_of_flat (planner : Planner) (config : TableConfig) (actions : List Action)
    (tokens : TokenSource) (flat : table.isPartitioned = false) :
    planner.planTable table config actions tokens =
      ⟨.ok [planner.task table.fullName table config
        (actions.filter fun action => action != .addPartition)], [], tokens⟩ := by
  unfold planTable
  rw [flat]
  rfl

/-- A partitioned table without partitions gets one task, which creates the table. -/
theorem planTable_of_empty (planner : Planner) (config : TableConfig) (actions : List Action)
    (tokens : TokenSource) (partitioned : table.isPartitioned = true)
    (bare : table.partitions = []) :
    planner.planTable table config actions tokens =
      ⟨.ok [planner.task table.fullName table config [.createTable]],
        [.nothingToMove table.database table.name], tokens⟩ := by
  unfold planTable
  rw [partitioned, bare]
  rfl

/-- A table with partitions gets a task for every group of them, and a token. -/
theorem planTable_of_partitions (planner : Planner) (config : TableConfig) (actions : List Action)
    (tokens : TokenSource) (partitioned : table.isPartitioned = true)
    (filled : table.partitions ≠ []) :
    planner.planTable table config actions tokens =
      ⟨.ok (planner.groupTasks table config actions s!"{table.fullName}.{tokens.draw.1}"
        (groups (groupSize config table.partitions.length).toNat table.partitions)), [],
        tokens.draw.2⟩ := by
  have positive := groupSize_pos config (List.length_pos_iff.mpr filled)
  unfold planTable
  rw [partitioned, if_neg (by decide), if_neg (mt List.isEmpty_iff.mp filled)]
  exact if_neg (by omega)

/-- **A table that is planned is covered.** -/
theorem planTable_covers (verifies : Verifies actions) (config : TableConfig)
    (tokens : TokenSource) :
    ∃ tasks, (planner.planTable table config actions tokens).tasks = .ok tasks ∧
      planner.Covers table tasks := by
  cases partitioned : table.isPartitioned with
  | false =>
    rw [planner.planTable_of_flat config actions tokens partitioned]
    refine ⟨_, rfl, List.forall_mem_singleton.mpr (planner.fresh_task ..),
      List.forall_mem_singleton.mpr ?_, List.cons_ne_nil _ _, fun key member => ?_⟩
    · refine part_task _ _ (.inl ?_) rfl rfl rfl fun _ => id
      obtain ⟨source, destination, last⟩ := verifies
      refine ⟨?_, ?_, ?_⟩ <;> refine List.mem_filter.mpr ⟨‹_›, by decide⟩
    · exact ⟨_, List.mem_singleton.mpr rfl, (planner.table_task ..).symm ▸ member⟩
  | true =>
    by_cases empty : table.partitions = []
    · rw [planner.planTable_of_empty config actions tokens partitioned empty]
      have keyless : table.keys = [] := by
        unfold Table.keys
        rw [if_pos partitioned, empty, List.map_nil]
      refine ⟨_, rfl, List.forall_mem_singleton.mpr (planner.fresh_task ..),
        List.forall_mem_singleton.mpr ?_, List.cons_ne_nil _ _, fun key member => ?_⟩
      · exact part_task _ _ (.inr ⟨List.cons_ne_nil _ _, by decide, keyless⟩) rfl rfl rfl fun _ => id
      · rw [keyless] at member
        cases member
    · rw [planner.planTable_of_partitions config actions tokens partitioned empty]
      have positive := groupSize_pos config (List.length_pos_iff.mpr empty)
      exact ⟨_, rfl, groupTasks_covers verifies partitioned empty
        (flatten_groups (by omega) table.partitions)⟩

/-- A plan for some actions takes the tables one after the other, and tells its tasks. -/
theorem plan_of_actions {σ : Type} (planner : Planner) (backend : Backend σ)
    (requested : actions ≠ []) (tables : List Table) (tokens : TokenSource) (state : σ) :
    planner.plan backend tables actions tokens state =
      let planned := planner.planEach backend actions tables tokens state
      .ok { planned with
        events := planned.events ++ [.notice (.planned (planned.tasks.map Task.name))] } :=
  if_neg (mt List.isEmpty_iff.mp requested)

/-! ### Plans for registered tables -/

variable {σ : Type} {engines : Engines σ} {store : σ → FaultyStore} {tables : List Table}
  {state : σ}

/-- Whether some tasks are parts of some tables and cover all of these. -/
structure CoversAll (planner : Planner) (tables : List Table) (tasks : List Task) : Prop where
  fresh : ∀ task ∈ tasks, task.Fresh
  part : ∀ task ∈ tasks, ∃ table ∈ tables, planner.Part table task
  covers : ∀ table ∈ tables, ∃ mine, (∀ task ∈ mine, task ∈ tasks) ∧ planner.Covers table mine

/-- What is set for a registered table can be read, and reading changes nothing. -/
theorem readConfig_registered (keep : engines.Keep store)
    (sound : ∀ sort, (store state).fault sort = none) {ref : StoreRef}
    (known : planner.store = some ref) (registered : (store state).memory.Registered table) :
    ∃ config : TableConfig, (planner.readConfig engines.backend table state).1 = .ok config ∧
      store (planner.readConfig engines.backend table state).2.2 = store state := by
  obtain ⟨config, found, _⟩ := registered
  obtain ⟨answer, after⟩ := keep.configured sound ref table.database table.name
  unfold readConfig
  rw [known]
  refine ⟨config, answer.trans ?_, after⟩
  have found : (store state).memory.tables.get? (Table.joinNames table.database table.name) =
      some (.register table config) := found
  unfold FaultyStore.config Memory.config Memory.find
  rw [found]
  rfl

/-- A registered table is planned, and the stores stay as they are. -/
theorem planNext_covers (keep : engines.Keep store)
    (sound : ∀ sort, (store state).fault sort = none) {ref : StoreRef}
    (known : planner.store = some ref) (verifies : Verifies actions)
    (registered : (store state).memory.Registered table) (tokens : TokenSource) :
    store (planner.planNext engines.backend actions table tokens state).state = store state ∧
      planner.Covers table (planner.planNext engines.backend actions table tokens state).tasks := by
  obtain ⟨config, read, after⟩ := readConfig_registered keep sound known registered
  obtain ⟨tasks, planned, covers⟩ : ∃ tasks,
      (planner.planTable table config actions tokens).tasks = .ok tasks ∧
        planner.Covers table tasks := planTable_covers verifies config tokens
  unfold planNext
  simp only [read, planned]
  exact ⟨after, covers⟩

/-- Registered tables are planned one after the other. -/
theorem planEach_covers (keep : engines.Keep store)
    (sound : ∀ sort, (store state).fault sort = none) {ref : StoreRef}
    (known : planner.store = some ref) (verifies : Verifies actions)
    (registered : ∀ table ∈ tables, (store state).memory.Registered table) (tokens : TokenSource) :
    store (planner.planEach engines.backend actions tables tokens state).state = store state ∧
      planner.CoversAll tables
        (planner.planEach engines.backend actions tables tokens state).tasks := by
  induction tables generalizing state tokens with
  | nil => exact ⟨rfl, List.forall_mem_nil _, List.forall_mem_nil _, List.forall_mem_nil _⟩
  | cons table rest hyp =>
    obtain ⟨first, others⟩ := List.forall_mem_cons.mp registered
    obtain ⟨same, covers⟩ := planNext_covers keep sound known verifies first tokens
    unfold planEach
    let next := planner.planNext engines.backend actions table tokens state
    have sound' : ∀ sort, (store next.state).fault sort = none := by rwa [same]
    have others' : ∀ table ∈ rest, (store next.state).memory.Registered table := by rwa [same]
    obtain ⟨same', fresh, part, all⟩ := hyp sound' others' next.tokens
    refine ⟨same'.trans same, List.forall_mem_append.mpr ⟨covers.fresh, fresh⟩,
      fun task member => ?_, fun other member => ?_⟩
    · rcases List.mem_append.mp member with mine | behind
      · exact ⟨table, List.mem_cons_self, covers.part task mine⟩
      · obtain ⟨other, among, part⟩ := part task behind
        exact ⟨other, List.mem_cons_of_mem _ among, part⟩
    · rcases List.mem_cons.mp member with rfl | behind
      · exact ⟨_, fun _ => List.mem_append_left _, covers⟩
      · obtain ⟨mine, among, covers⟩ := all other behind
        exact ⟨mine, fun task member => List.mem_append_right _ (among task member), covers⟩

/-- **Planning registered tables covers all of them**, and leaves the stores as they are. -/
theorem plan_covers (keep : engines.Keep store)
    (sound : ∀ sort, (store state).fault sort = none) {ref : StoreRef}
    (known : planner.store = some ref) (verifies : Verifies actions)
    (registered : ∀ table ∈ tables, (store state).memory.Registered table) (tokens : TokenSource) :
    ∃ planned, planner.plan engines.backend tables actions tokens state = .ok planned ∧
      store planned.state = store state ∧ planner.CoversAll tables planned.tasks := by
  rw [planner.plan_of_actions engines.backend (List.ne_nil_of_mem verifies.1)]
  exact ⟨_, rfl, planEach_covers keep sound known verifies registered tokens⟩

end Planner

end TableMigration
