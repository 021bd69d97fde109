/-
**How the partitions of a table are cut.**

* `Planner.getElem?_groups`, `Planner.length_groups` — the groups of a list are its slices of one
  size, and there are as many as it takes.
* `Planner.CutsFrom` — the same cut as a loop over places that are 64-bit words, whose sums may
  wrap. For lists and sizes below 2⁶³ none of them does, and the loop ends with these groups
  (`Planner.cutsFrom_iff`).
* `Planner.planTable_slices` — planning a table with partitions gives one task for every slice, in
  order, whatever its configuration is.
-/

import TableMigration.Proofs.Plans

namespace TableMigration

namespace Planner

/-! ### Groups by their places -/

section Groups

variable {α : Type} {size : Nat} {items : List α}

/-- Behind the end there is nothing to cut. -/
theorem groups_drop_of_le {start : Nat} (past : items.length ≤ start) :
    groups size (items.drop start) = [] := by
  rw [List.drop_of_length_le past]
  unfold groups
  rw [if_pos (.inr rfl)]

/-- One slice is cut off, and the rest begins a size behind it. -/
theorem groups_drop (positive : 0 < size) {start : Nat} (within : start < items.length) :
    groups size (items.drop start) =
      items.extract start (min items.length (start + size)) ::
        groups size (items.drop (start + size)) := by
  have proper : ¬ (size = 0 ∨ items.drop start = []) := by
    rw [List.drop_eq_nil_iff]
    omega
  have slice : (items.drop start).take size =
      items.extract start (min items.length (start + size)) := by
    rw [List.extract_eq_take_drop, List.take_eq_take_iff, List.length_drop]
    omega
  rw [groups, if_neg proper, slice, List.drop_drop]

/-- The groups behind a place, by their own places. -/
theorem getElem?_groups_drop (positive : 0 < size) (items : List α) (start place : Nat) :
    (groups size (items.drop start))[place]? = if start + place * size < items.length then
      some (items.extract (start + place * size)
        (min items.length (start + (place + 1) * size))) else none := by
  induction place generalizing start with
  | zero =>
    rw [Nat.zero_mul, Nat.zero_add, Nat.one_mul, Nat.add_zero]
    by_cases within : start < items.length
    · rw [groups_drop positive within, if_pos within, List.getElem?_cons_zero]
    · rw [groups_drop_of_le (Nat.le_of_not_lt within), if_neg within, List.getElem?_nil]
  | succ place hyp =>
    by_cases within : start < items.length
    · have before : start + size + place * size = start + (place + 1) * size := by
        rw [Nat.succ_mul]
        omega
      have behind : start + size + (place + 1) * size = start + (place + 1 + 1) * size := by
        rw [Nat.succ_mul (place + 1)]
        omega
      rw [groups_drop positive within, List.getElem?_cons_succ, hyp, before, behind]
    · have past : ¬ start + (place + 1) * size < items.length :=
        fun behind => within (Nat.lt_of_le_of_lt (Nat.le_add_right ..) behind)
      rw [groups_drop_of_le (Nat.le_of_not_lt within), if_neg past, List.getElem?_nil]

/-- **The group at a place** is the slice that begins so many sizes behind the beginning. -/
theorem getElem?_groups (positive : 0 < size) (items : List α) (place : Nat) :
    (groups size items)[place]? = if place * size < items.length then
      some (items.extract (place * size) (min items.length ((place + 1) * size))) else none := by
  simpa using getElem?_groups_drop positive items 0 place

/-- **There are as many groups as it takes**: the quotient, rounded up. -/
theorem length_groups (positive : 0 < size) (items : List α) :
    (groups size items).length = (items.length + size - 1) / size := by
  refine eq_of_forall_lt_iff fun place => ?_
  have there : place < (groups size items).length ↔ place * size < items.length := by
    have found := getElem?_groups positive items place
    by_cases within : place * size < items.length
    · rw [if_pos within] at found
      exact iff_of_true (List.getElem?_eq_some_iff.mp found).1 within
    · rw [if_neg within] at found
      exact iff_of_false (Nat.not_lt.mpr (List.getElem?_eq_none_iff.mp found)) within
  rw [there, Nat.lt_div_iff_mul_lt positive]
  omega

end Groups

/-! ### The loop over words -/

/-- Whether a loop that begins at a place ends with some groups of a size. Places are words: their
sums may wrap, and nothing says that the loop ends at all. -/
inductive CutsFrom {α : Type} (items : List α) (size : UInt64) : UInt64 → List (List α) → Prop
  | stop {start : UInt64} (past : ¬ start < .ofNat items.length) : CutsFrom items size start []
  | goOn {start : UInt64} (within : start < .ofNat items.length) {rest : List (List α)}
    (later : CutsFrom items size (start + size) rest) :
    CutsFrom items size start (items.extract start.toNat
      (min (.ofNat items.length) (start + size)).toNat :: rest)

section Words

variable {α : Type} {items : List α} {size start : UInt64} {cut other : List (List α)}

/-- A loop ends in one way at most. -/
theorem CutsFrom.unique (first : CutsFrom items size start cut)
    (second : CutsFrom items size start other) : cut = other := by
  induction first generalizing other with
  | stop past =>
    cases second with
    | stop => rfl
    | goOn within => exact absurd within past
  | goOn within later hyp =>
    cases second with
    | stop past => exact absurd within past
    | goOn _ later' => rw [hyp later']

theorem toNat_ofNat_of_small {number : Nat} (small : number < 2 ^ 63) :
    (UInt64.ofNat number).toNat = number :=
  UInt64.toNat_ofNat_of_lt' (Nat.lt_trans small (by decide))

/-- A sum of two places below 2⁶³ does not wrap. -/
theorem toNat_add_of_small (small : size.toNat < 2 ^ 63) (within : start.toNat < 2 ^ 63) :
    (start + size).toNat = start.toNat + size.toNat := by
  rw [UInt64.toNat_add, Nat.mod_eq_of_lt (by omega)]

/-- The loop ends with the groups behind its place. -/
theorem cutsFrom_groups (few : items.length < 2 ^ 63) (positive : 0 < size.toNat)
    (small : size.toNat < 2 ^ 63) (start : UInt64) :
    CutsFrom items size start (groups size.toNat (items.drop start.toNat)) := by
  have count : (UInt64.ofNat items.length).toNat = items.length := toNat_ofNat_of_small few
  by_cases within : start.toNat < items.length
  · have sum : (start + size).toNat = start.toNat + size.toNat :=
      toNat_add_of_small small (by omega)
    have goesOn : start < .ofNat items.length := UInt64.lt_iff_toNat_lt.mpr (count.symm ▸ within)
    have later := CutsFrom.goOn goesOn (cutsFrom_groups few positive small (start + size))
    rw [groups_drop positive within]
    simpa only [UInt64.toNat_min, count, sum] using later
  · have stops : ¬ start < .ofNat items.length := by
      rw [UInt64.lt_iff_toNat_lt, count]
      exact within
    rw [groups_drop_of_le (Nat.le_of_not_lt within)]
    exact .stop stops
termination_by items.length - start.toNat

/-- **The loop over a whole list ends with its groups**, and with nothing else. -/
theorem cutsFrom_iff (few : items.length < 2 ^ 63) (positive : 0 < size.toNat)
    (small : size.toNat < 2 ^ 63) :
    CutsFrom items size 0 cut ↔ cut = groups size.toNat items := by
  have ends : CutsFrom items size 0 (groups size.toNat items) :=
    cutsFrom_groups few positive small 0
  exact ⟨fun here => here.unique ends, fun same => same ▸ ends⟩

end Words

/-! ### Tasks for slices -/

/-- How many partitions a task gets at most, of a table with so many: what is set if that is
positive, and all of them otherwise. -/
def share (config : TableConfig) (count : Nat) : Nat :=
  ((config.groupSize.filter fun size => 0 < size).map Int.toNat).getD count

theorem toNat_groupSize (config : TableConfig) (count : Nat) :
    (groupSize config count).toNat = share config count := by
  unfold groupSize share
  cases config.groupSize with
  | none => rfl
  | some size =>
    by_cases positive : 0 < size
    · simp [Option.filter_some, positive]
    · simp [Option.filter_some, positive]

theorem share_pos (config : TableConfig) {count : Nat} (filled : 0 < count) :
    0 < share config count := by
  have positive := groupSize_pos config filled
  rw [← toNat_groupSize]
  omega

/-- Whether a task is new, and is there to do some actions for some partitions of a table. -/
structure Slice (planner : Planner) (table : Table) (config : TableConfig) (actions : List Action)
    (partitions : List Partition) (task : Task) : Prop where
  table : task.table = { table with partitions := partitions }
  config : task.config = config
  store : task.store = planner.store
  failureStatus : task.failureStatus = planner.failureStatus
  progress : ∀ action, task.actionProgress action = if action ∈ actions then some .new else none
  requested : ∀ action, action ∈ task.actions ↔ action ∈ actions
  ordered : task.actions.Pairwise fun first second => first.before second = true
  fresh : task.Fresh

theorem slice_task (planner : Planner) (name : String) (table : Table) (config : TableConfig)
    (actions : List Action) (partitions : List Partition) :
    planner.Slice table config actions partitions
      (planner.task name { table with partitions := partitions } config actions) := by
  have frame := planner.task_frame name { table with partitions := partitions } config actions
  have has := planner.has_task name { table with partitions := partitions } config actions
  refine ⟨congrArg Task.table frame, congrArg Task.config frame, congrArg Task.store frame,
    congrArg Task.failureStatus frame, ?_, ?_, ?_, planner.fresh_task ..⟩
  · exact Task.actionProgress_addActions _ actions
  · intro action
    simp [Task.mem_actions, has]
  · exact Action.all_pairwise_before.sublist List.filter_sublist

/-- The task for a group is found at the place of the group. -/
theorem getElem?_groupTasks (planner : Planner) (table : Table) (config : TableConfig)
    (actions : List Action) (stem : String) (cut : List (List Partition)) (place : Nat) :
    (planner.groupTasks table config actions stem cut)[place]? = cut[place]?.map fun group =>
      planner.task s!"{stem}.{place}" { table with partitions := group } config actions := by
  simp [groupTasks, Function.comp_def]

theorem partitions_groupTasks (planner : Planner) (table : Table) (config : TableConfig)
    (actions : List Action) (stem : String) (cut : List (List Partition)) :
    (planner.groupTasks table config actions stem cut).map (·.table.partitions) = cut := by
  ext place : 1
  simp [getElem?_groupTasks, Function.comp_def, table_task]

/-- The tasks for the groups of one table are told apart by the numbers in their names. -/
theorem names_groupTasks (planner : Planner) (table : Table) (config : TableConfig)
    (actions : List Action) (stem : String) (cut : List (List Partition)) :
    ((planner.groupTasks table config actions stem cut).map Task.name).Nodup := by
  have names : (planner.groupTasks table config actions stem cut).map Task.name =
      (List.range cut.length).map fun number => s!"{stem}.{number}" := by
    ext place : 1
    by_cases within : place < cut.length
    · simp [getElem?_groupTasks, name_task, within]
    · simp [getElem?_groupTasks, within]
  rw [names]
  refine List.nodup_range.map fun first second same => ?_
  have digits : first.repr = second.repr := (String.append_right_inj _).mp same
  have read : ∀ number : Nat, Nat.ofDigitChars 10 number.repr.toList 0 = number := by
    intro number
    rw [Nat.toList_repr, Nat.ofDigitChars_toDigits (by decide) (by decide)]
  rw [← read first, digits, read]

/-- The task at a place is there for the slice at this place, and has its number. -/
theorem slice_of_getElem? {planner : Planner} (positive : 0 < size) {stem : String} {place : Nat}
    {task : Task} (found : (planner.groupTasks table config actions stem
      (groups size table.partitions))[place]? = some task) :
    planner.Slice table config actions (table.partitions.extract (place * size)
      (min table.partitions.length ((place + 1) * size))) task ∧
      task.name = s!"{stem}.{place}" := by
  rw [getElem?_groupTasks, getElem?_groups positive, Option.map_eq_some_iff] at found
  obtain ⟨group, cut, rfl⟩ := found
  obtain ⟨_, same⟩ := Option.ite_none_right_eq_some.mp cut
  cases same
  exact ⟨planner.slice_task .., planner.name_task ..⟩

/-- A place at which a group begins does not wrap, and neither does the one behind the group. -/
theorem toNat_next_of_small {α : Type} {items : List α} (positive : 0 < size)
    (few : items.length < 2 ^ 63) (small : size < 2 ^ 63) {place : Nat}
    (within : place < (groups size items).length) :
    (UInt64.ofNat (place * size) + .ofNat size).toNat = place * size + size := by
  have start : place * size < items.length := by
    have found := List.getElem?_eq_getElem within
    rw [getElem?_groups positive] at found
    exact (Option.ite_none_right_eq_some.mp found).1
  have place := toNat_ofNat_of_small (start.trans few)
  have step := toNat_ofNat_of_small small
  rw [toNat_add_of_small (by omega) (by omega), place, step]

/-- **Planning a table with partitions cuts it into slices**, one task a slice, and never fails. -/
theorem planTable_slices (planner : Planner) (config : TableConfig) (actions : List Action)
    (tokens : TokenSource) {table : Table} (partitioned : table.isPartitioned = true)
    (filled : table.partitions ≠ []) :
    let count := table.partitions.length
    let size := share config count
    ∃ tasks, planner.planTable table config actions tokens = ⟨.ok tasks, [], tokens.draw.2⟩ ∧
      tasks.length = (count + size - 1) / size ∧
      (∀ place task, tasks[place]? = some task →
        planner.Slice table config actions
          (table.partitions.extract (place * size) (min count ((place + 1) * size))) task ∧
        task.name = s!"{table.fullName}.{tokens.draw.1}.{place}") ∧
      tasks.flatMap (·.table.partitions) = table.partitions ∧
      (∀ task ∈ tasks, task.table.partitions ≠ []) ∧
      (tasks.map Task.name).Nodup ∧
      (count < 2 ^ 63 → size < 2 ^ 63 →
        (∀ cut, CutsFrom table.partitions (.ofNat size) 0 cut ↔
          cut = tasks.map (·.table.partitions)) ∧
        ∀ place < tasks.length,
          (UInt64.ofNat (place * size) + .ofNat size).toNat = place * size + size) := by
  intro count size
  have positive : 0 < size := share_pos config (List.length_pos_iff.mpr filled)
  have planned := planner.planTable_of_partitions config actions tokens partitioned filled
  have parts := planner.partitions_groupTasks table config actions
    s!"{table.fullName}.{tokens.draw.1}" (groups size table.partitions)
  have long := congrArg List.length parts
  rw [toNat_groupSize] at planned
  rw [List.length_map] at long
  refine ⟨_, planned, long.trans (length_groups positive _),
    fun place task found => slice_of_getElem? positive found, ?_, fun task member => ?_,
    planner.names_groupTasks .., fun few small => ⟨fun cut => ?_, fun place within => ?_⟩⟩
  · rw [List.flatMap_def, parts, flatten_groups positive]
  · have cut : task.table.partitions ∈ groups size table.partitions := by
      rw [← parts]
      exact List.mem_map_of_mem member
    exact ne_nil_of_mem_groups cut
  · have step := toNat_ofNat_of_small small
    rw [parts, cutsFrom_iff few (by omega) (by omega), step]
  · exact toNat_next_of_small positive few small (within.trans_eq long)

/-- A planner without a store. -/
def sparePlanner : Planner := ⟨none, .failed⟩

/-- A table with five partitions. -/
def oddTable : Table where
  database := "sales"
  name := "orders"
  columns := ["day"]
  partitions := [⟨["mon"]⟩, ⟨["tue"]⟩, ⟨["wed"]⟩, ⟨["thu"]⟩, ⟨["fri"]⟩]

/-- Five partitions, cut by twos, make three tasks. -/
theorem planTable_slices_odd :
    oddTable.isPartitioned = true ∧ oddTable.partitions ≠ [] ∧
    ∃ tasks, sparePlanner.planTable oddTable ⟨some 2⟩ [.load, .extract] .chance =
        ⟨.ok tasks, [], .chance⟩ ∧ tasks.length = 3 ∧
      (∀ place task, tasks[place]? = some task →
        sparePlanner.Slice oddTable ⟨some 2⟩ [.load, .extract]
          (oddTable.partitions.extract (place * 2) (min 5 ((place + 1) * 2))) task ∧
        task.name = s!"sales.orders.????.{place}") ∧
      ∀ cut, CutsFrom oddTable.partitions 2 0 cut ↔ cut = tasks.map (·.table.partitions) := by
  have partitioned : oddTable.isPartitioned = true := rfl
  have filled : oddTable.partitions ≠ [] := by decide
  obtain ⟨tasks, planned, count, slices, _, _, _, words⟩ :=
    sparePlanner.planTable_slices ⟨some 2⟩ [.load, .extract] .chance partitioned filled
  exact ⟨partitioned, filled, tasks, planned, count, slices, (words (by decide) (by decide)).1⟩

end Planner

end TableMigration
