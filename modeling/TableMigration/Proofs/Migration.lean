/-
**A migration, from registered tables to what is left to do.**

* `Run.Completed` — a run of planned tasks that is over, with all of them listed and none of their
  actions refused.
* `Run.Completed.waits` — a partition waits iff the two sides do not count the same under its key, and
  `Run.Completed.onRow` — the row of a table got one write, of success iff they do under all its keys.
* `Run.migrates` — so the memory tells after the run what is left to do (`Memory.Tells`).
-/

import TableMigration.Proofs.Census

namespace TableMigration

/-! ### What the writes of a task say -/

namespace Task

variable {task : Task} {write : Write} {partitions : List Partition}

/-- What a task writes on partitions is about its table. -/
theorem Explains.fullName (explains : task.Explains write) :
    write.fullName = task.table.fullName := by
  cases explains with
  | differing => rfl
  | settled settles =>
    unfold checkpointDeliveries at settles
    split at settles
    · split at settles
      · cases settles
      · cases List.mem_singleton.mp settles
        rfl
    · cases settles

theorem checkpointDeliveries_of_some {status : Status} (filled : partitions ≠ [])
    (settles : task.checkpoint = some (status, partitions)) : task.checkpointDeliveries =
      [.write (.status task.table.database task.table.name partitions status)] := by
  unfold checkpointDeliveries
  rw [settles]
  dsimp only
  rw [if_neg fun empty => filled (List.isEmpty_iff.mp empty)]

theorem eq_of_settles {status : Status} (settles : task.checkpoint = some (status, partitions))
    (member : .write write ∈ task.checkpointDeliveries) :
    write = .status task.table.database task.table.name partitions status := by
  unfold checkpointDeliveries at member
  rw [settles] at member
  dsimp only at member
  split at member
  · cases member
  · cases List.mem_singleton.mp member
    rfl

end Task

/-! ### What is left to do -/

namespace Memory

variable {memory : Memory} {census : Census} {table : Table} {entry : TableRow}

/-- Whether a memory tells what is left to do for a table: the partitions for which the two sides do
not count the same wait, and the table has succeeded at once iff they count the same under all its keys.
Otherwise it has failed once. -/
structure Tells (memory : Memory) (census : Census) (table : Table) : Prop where
  waiting : table.isPartitioned = true → memory.partitionsToMigrate table =
    .ok (table.partitions.filter fun partition => !census.agree table.fullName partition.key)
  succeeded : memory.tableStatus table.database table.name = .ok .succeeded ∧
    memory.attempts table.database table.name = .ok 0 ↔ census.agreeAll table = true
  failed : census.agreeAll table = false →
    memory.tableStatus table.database table.name = .ok (.afterFailure memory.retryLimit 1) ∧
      memory.attempts table.database table.name = .ok 1

theorem find_of_get? (found : memory.tables.get? table.fullName = some entry) :
    memory.find table.database table.name = .ok entry := by
  unfold Table.fullName at found
  unfold find
  rw [found]

/-- A memory tells what the rows of a table say. -/
theorem tells_of_rows (found : memory.tables.get? table.fullName = some entry)
    (waits : table.isPartitioned = true → ∀ key ∈ table.keys,
      entry.waits key = !census.agree table.fullName key)
    (row : entry.row = if census.agreeAll table then ⟨.succeeded, 0⟩
      else ⟨.afterFailure memory.retryLimit 1, 1⟩) : memory.Tells census table := by
  have status : memory.tableStatus table.database table.name = .ok entry.row.status := by
    unfold tableStatus
    rw [find_of_get? found]
    rfl
  have attempts : memory.attempts table.database table.name = .ok entry.row.attempts := by
    unfold Memory.attempts
    rw [find_of_get? found]
    rfl
  refine ⟨fun partitioned => ?_, ?_, fun differs => ?_⟩
  · have same : ∀ partition ∈ table.partitions, entry.waits partition.key =
        !census.agree table.fullName partition.key := by
      intro partition member
      refine waits partitioned _ ?_
      unfold Table.keys
      rw [if_pos partitioned]
      exact List.mem_map_of_mem member
    rw [← List.filter_congr same]
    unfold partitionsToMigrate
    rw [find_of_get? found]
    rfl
  · rw [status, attempts, row]
    cases census.agreeAll table <;> simp
  · rw [status, attempts, row, differs]
    exact ⟨rfl, rfl⟩

end Memory

namespace Run

variable {σ : Type} {engines : Engines σ} {origin last : Run σ} {planner : Planner}
  {census : Census} {tables : List Table} {tasks : List Task} {listed : List Nat} {acts : List Act}
  {written : List (StoreRef × Write)} {store : StoreRef} {number : Nat} {task : Task}
  {table : Table} {key : String} {call : StoreRef × Write}

/-! ### The end of a migration -/

/-- What holds of a run of planned tasks that is over, when all of them were listed and none of their
actions was refused. -/
structure Completed (last origin : Run σ) (census : Census) (planner : Planner)
    (tables : List Table) (tasks : List Task) (listed : List Nat) (acts : List Act)
    (store : StoreRef) (written : List (StoreRef × Write)) : Prop where
  booked : last.Booked (Brief.Counted census) true origin acts written
  charged : last.Charged tasks listed acts store written
  past : last.isOver = true
  accepted : ∀ number action, .refused number action ∉ acts
  began : origin.ledger.custody.tasks = fun number => (tasks[number]?).map Task.deaf
  grouped : origin.tables = Grouping.ofTasks tasks listed
  all : ∀ number < tasks.length, number ∈ listed
  covers : planner.CoversAll tables tasks
  distinct : ∀ first ∈ tables, ∀ second ∈ tables, first.fullName = second.fullName →
    first = second
  known : planner.store.isSome = true
  failureStatus : planner.failureStatus = .succeeded

namespace Completed

variable (completed : last.Completed origin census planner tables tasks listed acts store written)

include completed

/-- Every task was planned. -/
theorem planned_of_found (found : last.tasks[number]? = some task) :
    ∃ planned, tasks[number]? = some planned ∧ task.SameKind planned := by
  obtain ⟨initial, began, kind⟩ :=
    completed.booked.steady.certain.kind number task.deaf (custody_of_found found)
  rw [completed.began] at began
  obtain ⟨planned, known, rfl⟩ := Option.map_eq_some_iff.mp began
  exact ⟨planned, known, task.sameKind_deaf.1.trans (kind.trans planned.sameKind_deaf.2)⟩

/-- Every task that was planned is there. -/
theorem found_of_planned {planned : Task} (member : planned ∈ tasks) :
    ∃ (number : Nat) (task : Task), last.tasks[number]? = some task ∧ task.SameKind planned := by
  obtain ⟨number, known⟩ := List.mem_iff_getElem?.mp member
  have began : origin.ledger.custody.tasks number = some planned.deaf := by
    rw [completed.began]
    dsimp only
    rw [known]
    rfl
  obtain ⟨after, heard, kind⟩ := completed.booked.steady.present number planned.deaf began
  obtain ⟨task, found, rfl⟩ := Option.map_eq_some_iff.mp heard
  exact ⟨number, task, found,
    task.sameKind_deaf.1.trans (kind.trans planned.sameKind_deaf.2)⟩

/-- Every task is a part of a table. -/
theorem part_of_found (found : last.tasks[number]? = some task) :
    ∃ table ∈ tables, planner.Part table task := by
  obtain ⟨planned, known, kind⟩ := completed.planned_of_found found
  obtain ⟨table, among, part⟩ := completed.covers.part planned (List.mem_of_getElem? known)
  exact ⟨table, among, part.of_sameKind kind⟩

theorem mem_listed (found : last.tasks[number]? = some task) : number ∈ listed := by
  obtain ⟨planned, known, _⟩ := completed.planned_of_found found
  exact completed.all number (List.getElem?_eq_some_iff.mp known).1

theorem left (found : last.tasks[number]? = some task) :
    last.ledger.custody.items = 0 ∧ last.ledger.custody.Left number := by
  obtain ⟨planned, known, _⟩ := completed.planned_of_found found
  refine completed.booked.steady.left completed.past ?_
  rw [completed.grouped]
  exact Grouping.has_ofTasks (completed.mem_listed found) known

/-- A task has succeeded iff both sides count the same under its keys. -/
theorem progress (found : last.tasks[number]? = some task) (part : planner.Part table task) :
    task.progress = if census.agreeAll task.table then .succeeded else .failed := by
  obtain ⟨away, left⟩ := completed.left found
  have heard := part.of_sameKind task.sameKind_deaf.2
  have ends := completed.booked.steady.certain.counted_progress away left (custody_of_found found)
    (completed.accepted number) heard.verifiable
  exact ends

/-- A task settles the partitions for which both sides count the same. -/
theorem checkpoint (found : last.tasks[number]? = some task) (part : planner.Part table task)
    (partitioned : table.isPartitioned = true) :
    task.checkpoint = some (.succeeded, task.table.partitions.filter fun partition =>
      census.agree table.fullName partition.key) := by
  obtain ⟨away, left⟩ := completed.left found
  have heard := part.of_sameKind task.sameKind_deaf.2
  have settles := completed.booked.steady.certain.counted_checkpoint away left
    (custody_of_found found) (completed.accepted number) completed.booked.divided heard.verifiable
    (heard.partitioned.trans partitioned) (heard.failureStatus.trans completed.failureStatus)
  rw [heard.fullName] at settles
  exact settles

/-- What a task has counted for a partition is what the census has. -/
theorem agree (found : last.tasks[number]? = some task) (part : planner.Part table task)
    (partitioned : table.isPartitioned = true) {partition : Partition}
    (among : partition ∈ task.table.partitions) :
    task.partitionAgrees partition = census.agree table.fullName partition.key := by
  obtain ⟨away, left⟩ := completed.left found
  have heard := part.of_sameKind task.sameKind_deaf.2
  have mine : partition.key ∈ task.deaf.table.keys := by
    unfold Table.keys
    rw [if_pos (heard.partitioned.trans partitioned)]
    exact List.mem_map_of_mem among
  have agrees := completed.booked.steady.certain.agree_census away left (custody_of_found found)
    (completed.accepted number) heard.verifiable mine
  rw [heard.fullName] at agrees
  exact agrees

/-! ### Partitions -/

/-- What is written on partitions of a table says whether both sides count the same. -/
theorem alike (among : table ∈ tables) (partitioned : table.isPartitioned = true)
    (member : call ∈ written) (mine : call.2.fullName = table.fullName)
    (touches : call.2.touches key = true) :
    (call.2.sets != .succeeded) = !census.agree table.fullName key := by
  have beside : call.2.isOnRow = false := by
    by_contra row
    rw [Write.touches_of_isOnRow (Bool.not_eq_false _ ▸ row)] at touches
    cases touches
  obtain ⟨number, task, found, explains⟩ :=
    completed.booked.recorded.explained call member beside
  obtain ⟨other, among', part⟩ := completed.part_of_found found
  obtain rfl : other = table := by
    refine completed.distinct other among' table among ?_
    rw [← part.fullName, ← explains.fullName, mine]
  obtain ⟨ref, write⟩ := call
  dsimp only at explains touches ⊢
  cases explains with
  | settled settles =>
    have written := Task.eq_of_settles (completed.checkpoint found part partitioned) settles
    rw [written] at touches ⊢
    obtain ⟨partition, chosen, same⟩ := List.any_eq_true.mp touches
    have agrees := (List.mem_filter.mp chosen).2
    rw [beq_iff_eq.mp same] at agrees
    rw [agrees]
    rfl
  | @differing partitions cleared differ =>
    obtain ⟨partition, chosen, same⟩ := List.any_eq_true.mp touches
    obtain ⟨among, differs⟩ := differ partition chosen
    have agrees := completed.agree found part partitioned among
    rw [differs, beq_iff_eq.mp same] at agrees
    rw [← agrees]
    rfl

/-- Every key of a table is one of a task. -/
theorem found_of_key (among : table ∈ tables) (mine : key ∈ table.keys) :
    ∃ (number : Nat) (task : Task), last.tasks[number]? = some task ∧ planner.Part table task ∧
      key ∈ task.table.keys := by
  obtain ⟨group, all, covers⟩ := completed.covers.covers table among
  obtain ⟨planned, chosen, keys⟩ := covers.keys key mine
  obtain ⟨number, task, found, kind⟩ := completed.found_of_planned (all planned chosen)
  exact ⟨number, task, found, (covers.part planned chosen).of_sameKind kind, kind.table ▸ keys⟩

/-- What both sides count the same under was written on. -/
theorem reached (among : table ∈ tables) (partitioned : table.isPartitioned = true)
    (mine : key ∈ table.keys) (agrees : census.agree table.fullName key = true) :
    ∃ call ∈ written, call.2.fullName = table.fullName ∧ call.2.touches key = true := by
  obtain ⟨number, task, found, part, keys⟩ := completed.found_of_key among mine
  unfold Table.keys at keys
  rw [if_pos (part.partitioned.trans partitioned)] at keys
  obtain ⟨partition, here, rfl⟩ := List.mem_map.mp keys
  have settled : partition ∈ task.table.partitions.filter fun partition =>
      census.agree table.fullName partition.key := List.mem_filter.mpr ⟨here, agrees⟩
  have deliveries := Task.checkpointDeliveries_of_some (List.ne_nil_of_mem settled)
    (completed.checkpoint found part partitioned)
  obtain ⟨ref, known⟩ := Option.isSome_iff_exists.mp completed.known
  have made := completed.booked.kept completed.past found (deliveries ▸ List.mem_singleton_self _)
  unfold Task.writesOf at made
  rw [part.store, known] at made
  have made := List.forall_mem_singleton.mp made
  exact ⟨_, made, part.fullName, List.any_eq_true.mpr ⟨partition, settled, beq_self_eq_true _⟩⟩

/-- **In the end a partition waits iff the two sides do not count the same under its key.** -/
theorem waits (among : table ∈ tables) (partitioned : table.isPartitioned = true)
    (mine : key ∈ table.keys) (retryLimit : Int) (config : TableConfig) :
    (((written.map Prod.snd).filter fun write => write.fullName == table.fullName).foldl
      (TableRow.after retryLimit) (.register table config)).waits key =
        !census.agree table.fullName key := by
  have alike : ∀ write ∈ (written.map Prod.snd).filter fun write =>
      write.fullName == table.fullName, write.touches key = true →
      (write.sets != .succeeded) = !census.agree table.fullName key := by
    intro write member touches
    obtain ⟨called, same⟩ := List.mem_filter.mp member
    obtain ⟨call, made, rfl⟩ := List.mem_map.mp called
    exact completed.alike among partitioned made (beq_iff_eq.mp same) touches
  by_cases failed : ∃ write ∈ (written.map Prod.snd).filter fun write =>
      write.fullName == table.fullName, write.touches key = true
  · exact TableRow.waits_foldl_after partitioned alike failed
  · have differs : census.agree table.fullName key = false := by
      by_contra agrees
      obtain ⟨call, made, same, touches⟩ :=
        completed.reached among partitioned mine (Bool.not_eq_false _ ▸ agrees)
      refine failed ⟨call.2, List.mem_filter.mpr ⟨List.mem_map_of_mem made, ?_⟩, touches⟩
      exact beq_iff_eq.mpr same
    rw [TableRow.waits_foldl_after_of_not partitioned fun write member =>
      Bool.eq_false_iff.mpr fun touches => failed ⟨write, member, touches⟩, differs]
    exact TableRow.waits_register table config key

/-! ### Rows of tables -/

/-- Every table has a task. -/
theorem found_of_table (among : table ∈ tables) : ∃ (number : Nat) (task : Task),
    last.tasks[number]? = some task ∧ planner.Part table task := by
  obtain ⟨group, all, covers⟩ := completed.covers.covers table among
  obtain ⟨planned, chosen⟩ := List.exists_mem_of_ne_nil _ covers.filled
  obtain ⟨number, task, found, kind⟩ := completed.found_of_planned (all planned chosen)
  exact ⟨number, task, found, (covers.part planned chosen).of_sameKind kind⟩

/-- The tasks of a table are its parts. -/
theorem mem_ofTable (among : table ∈ tables) :
    task ∈ Task.ofTable (Task.entries last.tasks listed) table.fullName ↔
      ∃ number : Nat, last.tasks[number]? = some task ∧ planner.Part table task := by
  unfold Task.ofTable Task.entries
  rw [List.mem_filter, List.mem_filterMap, beq_iff_eq]
  constructor
  · rintro ⟨⟨number, _, found⟩, named⟩
    obtain ⟨other, among', part⟩ := completed.part_of_found found
    obtain rfl : other = table :=
      completed.distinct other among' table among (part.fullName.symm.trans named)
    exact ⟨number, found, part⟩
  · rintro ⟨number, found, part⟩
    exact ⟨⟨number, completed.mem_listed found, found⟩, part.fullName⟩

/-- **In the end the row of a table got one write**, of success iff both sides count the same under all
its keys. -/
theorem onRow (among : table ∈ tables) : ∃ database name, Write.onRow written table.fullName =
    [(store, if census.agreeAll table then .status database name [] .succeeded
      else .failure database name)] := by
  obtain ⟨number, task, found, part⟩ := completed.found_of_table among
  have entry := (completed.mem_ofTable among).mpr ⟨number, found, part⟩
  obtain ⟨final, ends⟩ := Option.ne_none_iff_exists'.mp
    (mt List.getLast?_eq_none_iff.mp (List.ne_nil_of_mem entry))
  have settles := completed.charged.settles completed.past ends
  refine ⟨final.table.database, final.table.name, ?_⟩
  cases agrees : census.agreeAll table with
  | true =>
    refine settles.succeeded.mpr fun other member => ?_
    obtain ⟨_, found, part⟩ := (completed.mem_ofTable among).mp member
    rw [completed.progress found part, if_pos]
    refine List.all_eq_true.mpr fun key mine => ?_
    rw [part.fullName]
    exact List.all_eq_true.mp agrees key (part.keys key mine)
  | false =>
    obtain ⟨key, mine, differs⟩ := List.all_eq_false.mp agrees
    obtain ⟨number, task, found, part, keys⟩ := completed.found_of_key among mine
    refine settles.failed.mpr ⟨task, (completed.mem_ofTable among).mpr ⟨number, found, part⟩, ?_⟩
    rw [completed.progress found part, if_neg]
    refine Bool.eq_false_iff.mp (List.all_eq_false.mpr ⟨key, keys, ?_⟩)
    rwa [part.fullName]

/-- The row of a table in the end. -/
theorem row (among : table ∈ tables) (retryLimit : Int) (config : TableConfig) :
    (((written.map Prod.snd).filter fun write => write.fullName == table.fullName).foldl
      (TableRow.after retryLimit) (.register table config)).row =
        if census.agreeAll table then ⟨.succeeded, 0⟩ else ⟨.afterFailure retryLimit 1, 1⟩ := by
  obtain ⟨database, name, written⟩ := completed.onRow among
  rw [TableRow.row_foldl_after, Write.filter_isOnRow, written]
  split <;> rfl

/-- **The writes leave a memory that tells what is left to do.** -/
theorem tells {memory : Memory} (among : table ∈ tables) (registered : memory.Registered table) :
    ((written.map Prod.snd).foldl Memory.after memory).Tells census table := by
  obtain ⟨config, found, _⟩ := registered
  have rows := Memory.get?_foldl_after found (written.map Prod.snd)
  refine Memory.tells_of_rows rows (fun partitioned key mine => ?_) ?_
  · exact completed.waits among partitioned mine memory.retryLimit config
  · rw [Memory.retryLimit_foldl_after]
    exact completed.row among memory.retryLimit config

end Completed

end Run

/-! ### Engines for a census -/

/-- What is kept under some keys as far as there is anything. -/
theorem Keyed.get?_filterMap {α : Type} (value : String → Option α) (keys : List String)
    (key : String) :
    Keyed.get? (keys.filterMap fun key => (value key).map fun value => (key, value)) key =
      if key ∈ keys then value key else none := by
  induction keys with
  | nil => rfl
  | cons first rest hyp =>
    rw [List.filterMap_cons]
    cases here : value first with
    | none =>
      refine hyp.trans ?_
      by_cases same : key = first
      · rw [same, here, ite_self, ite_self]
      · simp only [List.mem_cons, same, false_or]
    | some found =>
      rw [Option.map_some]
      dsimp only
      unfold Keyed.get?
      by_cases same : first = key
      · subst same
        rw [if_pos rfl, if_pos List.mem_cons_self, here]
      · rw [if_neg same, hyp]
        simp only [List.mem_cons, Ne.symm same, false_or]

namespace Engines

/-- Engines that succeed and count by a census, beside the stores that are their state. -/
def ofCensus (census : Census) : Engines FaultyStore where
  backend := FaultyStore.backend
  call _ _ task action stores :=
    let counts := task.table.keys.filterMap fun key =>
      (census action task.table.fullName key).map fun count => (key, count)
    (.returned { Execution.succeed with counts := some counts }, stores)

theorem keep_ofCensus (census : Census) : (ofCensus census).Keep id where
  config _ _ _ _ := ⟨rfl, rfl⟩
  write _ _ _ := ⟨rfl, rfl⟩
  call _ _ _ _ _ := rfl

/-- There are such engines for every census. -/
theorem countBy_ofCensus (census : Census) : (ofCensus census).CountBy census := by
  intro engine number task action stores _
  refine ⟨_, rfl, rfl, fun _ key mine => ?_⟩
  exact (Keyed.get?_filterMap _ _ _).trans (if_pos mine)

end Engines

/-! ### A migration -/

namespace Run

variable {σ : Type} {engines : Engines σ} {store : σ → FaultyStore} {census : Census}

/-- **What is left to do after a migration.** Tables that were just added are planned, and their tasks are
run until the run is over, with actions that all succeed and counts by a census. Then the memory tells
by this census what is left to do for every table. Planning succeeds, the run begins, and it can be
brought to its end from wherever it has come. -/
theorem migrates {before added : Memory} {entries : List (Table × TableConfig)}
    {tables : List Table} {actions : List Action} {planner : Planner} {scheduler : Scheduler}
    {state : σ} {tokens : TokenSource} (adds : before.addTables entries = .ok added)
    (holds : store state = ⟨added, fun _ => none⟩)
    (among : ∀ table ∈ tables, ∃ config, (table, config) ∈ entries)
    (keep : engines.Keep store) (counts : engines.CountBy census)
    (verifies : Planner.Verifies actions) (stored : planner.store.isSome = true)
    (failureStatus : planner.failureStatus = .succeeded) (able : scheduler.Able)
    (recorded : scheduler.store.isSome = true) (itself : scheduler.verifiesItself = true) :
    ∃ planned, planner.plan engines.backend tables actions tokens state = .ok planned ∧
      ∀ listed : List Nat, (∀ number < planned.tasks.length, number ∈ listed) →
        ∃ run, scheduler.launch planned.tasks listed planned.state = .started run ∧
          ∀ moves last, run.steps engines moves = some last →
            (∀ number action, .refused number action ∉ run.trace engines moves) →
            (∃ more final, last.steps engines more = some final ∧ final.isOver = true) ∧
              (last.isOver = true → (store last.state).memory.retryLimit = before.retryLimit ∧
                ∀ table ∈ tables, (store last.state).memory.Tells census table) := by
  obtain ⟨ref, stored'⟩ := Option.isSome_iff_exists.mp stored
  obtain ⟨ref', known⟩ := Option.isSome_iff_exists.mp recorded
  obtain ⟨limit, registered, distinct⟩ := Memory.addTables_among adds among
  have sound : ∀ sort, (store state).fault sort = none := by
    rw [holds]
    exact fun _ => rfl
  obtain ⟨planned, plans, same, covers⟩ := Planner.plan_covers keep sound stored' verifies
    (by rw [holds]; exact registered) tokens
  refine ⟨planned, plans, fun listed all => ?_⟩
  obtain ⟨run, launched⟩ := able.starts planned.tasks listed planned.state
  refine ⟨run, launched, fun moves last reached accepted => ?_⟩
  have begins := able.resting.begins launched
  have booked := (itself ▸ booked_begins begins covers.fresh (Brief.Counted census) : run.Booked
    (Brief.Counted census) true run [] []).steps (keeps_counted counts) reached
  refine ⟨booked.steady.healthy.completes engines, fun past => ?_⟩
  have completed : last.Completed run census planner tables planned.tasks listed
      ([] ++ run.trace engines moves) ref' ([] ++ run.allWrites engines moves) := {
    booked := booked
    charged := (charged_begins begins known).steps reached
    past := past
    accepted := accepted
    began := by rw [Campaign.custody_begins begins]
    grouped := begins.grouped
    all := all
    covers := covers
    distinct := distinct
    known := stored
    failureStatus := failureStatus }
  rw [List.nil_append, List.nil_append] at completed
  have memory : (store last.state).memory =
      ((run.allWrites engines moves).map Prod.snd).foldl Memory.after added := by
    have began : store run.state = ⟨added, fun _ => none⟩ := by rw [begins.world, same, holds]
    rw [(steps_wrote reached).made.memory keep (by rw [began]; exact fun _ => rfl), began]
  rw [memory]
  exact ⟨(Memory.retryLimit_foldl_after _ _).trans limit, fun table member =>
    completed.tells member (registered table member)⟩

/-- A table with two partitions. -/
def mixedTable : Table :=
  ⟨"d", "t", ["p"], [⟨["x"]⟩, ⟨["y"]⟩]⟩

/-- The two sides count differently for the second partition. -/
def mixedCensus : Census := fun action _ key =>
  if action = .destinationValidate ∧ key = "y" then some "2" else some "1"

/-- A store with this table, in which one failed attempt is followed by another. -/
def mixedStore : FaultyStore :=
  ⟨(Memory.empty 1).put "d" "t" (.register mixedTable ⟨none⟩), fun _ => none⟩

/-- A planner with a store. -/
def storedPlanner : Planner :=
  ⟨some 0, .succeeded⟩

/-- The table is counted on both sides, verified and recorded. -/
def mixedMoves : List Move :=
  promptMoves ++ List.replicate 6 (.work .validation 0) ++ List.replicate 10 .advance

/-- One of two partitions is left to do, and the table waits for another attempt. -/
theorem migrates_mixed : ∃ planned run last,
    storedPlanner.plan FaultyStore.backend [mixedTable]
      [.sourceValidate, .destinationValidate, .finalVerification] .chance mixedStore =
        .ok planned ∧
    storedScheduler.launch planned.tasks [0] planned.state = .started run ∧
    run.steps (Engines.ofCensus mixedCensus) mixedMoves = some last ∧ last.isOver = true ∧
    last.state.memory.partitionsToMigrate mixedTable = .ok [⟨["y"]⟩] ∧
    last.state.memory.tableStatus "d" "t" = .ok .pending ∧
    last.state.memory.attempts "d" "t" = .ok 1 := by
  have goes : (match storedPlanner.plan FaultyStore.backend [mixedTable]
        [.sourceValidate, .destinationValidate, .finalVerification] .chance mixedStore with
      | .ok planned => decide (planned.tasks.length = 1) &&
        (storedScheduler.launch planned.tasks [0] planned.state).leads
          (Engines.ofCensus mixedCensus) mixedMoves fun run last => last.isOver &&
            (run.trace (Engines.ofCensus mixedCensus) mixedMoves).all fun act =>
              match act with
              | .refused .. => false
              | _ => true
      | .error _ => false) = true := by decide +kernel
  let entries : List (Table × TableConfig) := [(mixedTable, ⟨none⟩)]
  have adds : (Memory.empty 1).addTables entries = .ok mixedStore.memory := rfl
  have holds : id mixedStore = ⟨mixedStore.memory, fun _ => none⟩ := rfl
  have among : ∀ table ∈ [mixedTable], ∃ config, (table, config) ∈ entries :=
    List.forall_mem_singleton.mpr ⟨⟨none⟩, List.mem_singleton_self _⟩
  have verifies : Planner.Verifies [.sourceValidate, .destinationValidate, .finalVerification] := by
    simp [Planner.Verifies]
  have able : storedScheduler.Able :=
    Scheduler.able_create _ _ fun _ => ⟨Nat.one_pos, Nat.one_pos⟩
  have stored : storedPlanner.store.isSome = true := rfl
  obtain ⟨planned, plans, runs⟩ := migrates adds holds among (Engines.keep_ofCensus mixedCensus)
    (Engines.countBy_ofCensus mixedCensus) verifies stored rfl able rfl rfl
  have plans : storedPlanner.plan FaultyStore.backend [mixedTable]
      [.sourceValidate, .destinationValidate, .finalVerification] .chance mixedStore =
        .ok planned := plans
  rw [plans] at goes
  obtain ⟨one, goes⟩ := Bool.and_eq_true_iff.mp goes
  obtain ⟨run, launched, runs⟩ := runs [0] fun number within => by
    rw [of_decide_eq_true one] at within
    exact List.mem_singleton.mpr (Nat.lt_one_iff.mp within)
  obtain ⟨_, last, launched', reached, ends⟩ := Launch.of_leads goes
  cases launched.symm.trans launched'
  obtain ⟨past, accepted⟩ := Bool.and_eq_true_iff.mp ends
  obtain ⟨_, tells⟩ := runs mixedMoves last reached fun number action refused => by
    cases List.all_eq_true.mp accepted _ refused
  obtain ⟨limit, tells⟩ := tells past
  obtain ⟨waiting, _, failed⟩ := tells mixedTable (List.mem_singleton_self _)
  obtain ⟨status, attempts⟩ := failed (by decide +kernel)
  have limit : last.state.memory.retryLimit = 1 := limit
  have waits : Status.afterFailure last.state.memory.retryLimit 1 = .pending := by
    rw [limit]
    decide
  refine ⟨planned, run, last, plans, launched, reached, past, ?_, ?_, attempts⟩
  · exact (waiting rfl).trans (congrArg Except.ok (by decide +kernel))
  · exact status.trans (congrArg Except.ok waits)

end Run

end TableMigration
