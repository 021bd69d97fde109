/-
**What writes leave in a memory.**

* `Memory.after` — a memory after a write: a write that fails changes nothing. The rows of a table
  change by the writes on its full name alone (`Memory.get?_foldl_after`).
* `TableRow.row_foldl_after` — the row of a table follows the statuses that were written on it, and
  `TableRow.waits_foldl_after` — a partition waits to be migrated unless the writes on it were of
  success.
* `Memory.Alike` — memories that tell the same of all tables and partitions. Writes lead there if they
  are the same on the row of every table and on every partition (`Memory.alike_foldl_after`).
* `Engines.Keep` — stores that are one memory without faults, which calls of engines leave alone. What
  a run makes of it is a matter of the writes of the run (`Engines.Goes.memory`).
-/

import TableMigration.Proofs.TableCalls
import TableMigration.Store.Faulty

namespace TableMigration

/-! ### What a write is about -/

namespace Write

/-- The status that a write sets. -/
def sets : Write → Status
  | .status _ _ _ value => value
  | .failure .. => .failed

/-- Whether a write sets the status of a partition with a key. -/
def touches (write : Write) (key : String) : Bool :=
  match write with
  | .status _ _ partitions _ => partitions.any fun partition => partition.key == key
  | .failure .. => false

/-- A write on the row of a table touches no partition. -/
theorem touches_of_isOnRow {write : Write} (row : write.isOnRow = true) (key : String) :
    write.touches key = false := by
  cases write with
  | failure => rfl
  | status _ _ partitions _ =>
    obtain rfl : partitions = [] := List.isEmpty_iff.mp row
    rfl

/-- The writes on the row of a table are those of its writes that touch no partition. -/
theorem filter_isOnRow (written : List (StoreRef × Write)) (name : String) :
    ((written.map Prod.snd).filter fun write => write.fullName == name).filter isOnRow =
      (onRow written name).map Prod.snd := by
  rw [List.filter_filter, List.filter_map]
  rfl

/-- Those of some writes that address a partition, given the full name of its table and its key. -/
def onPartition (writes : List (StoreRef × Write)) (name key : String) : List (StoreRef × Write) :=
  writes.filter fun call => call.2.fullName == name && call.2.touches key

theorem mem_onPartition {writes : List (StoreRef × Write)} {name key : String}
    {call : StoreRef × Write} : call ∈ onPartition writes name key ↔
      call ∈ writes ∧ call.2.fullName = name ∧ call.2.touches key = true := by
  rw [onPartition, List.mem_filter, Bool.and_eq_true, beq_iff_eq]

end Write

/-! ### Rows of a table -/

theorem Row.status_record (retryLimit : Int) (status : Status) (row : Row) :
    (row.record retryLimit status).status = .succeeded ↔ status = .succeeded := by
  cases status with
  | failed =>
    unfold record Status.afterFailure
    dsimp only
    split <;> simp
  | _ => exact Iff.rfl

namespace TableRow

variable {retryLimit : Int} {entry : TableRow} {key : String} {write : Write} {writes : List Write}

/-- Whether a partition has no row or is not migrated yet. -/
def waits (entry : TableRow) (key : String) : Bool :=
  (entry.partitions.get? key).all fun row => row.status != .succeeded

/-- The rows of a table after a write on them. -/
def after (retryLimit : Int) (entry : TableRow) (write : Write) : TableRow :=
  if write.isOnRow then { entry with row := entry.row.record retryLimit write.sets }
  else match write with
    | .status _ _ partitions status =>
      if entry.partitioned then entry.recordPartitions retryLimit status partitions else entry
    | .failure .. => entry

theorem partitioned_after (retryLimit : Int) (entry : TableRow) (write : Write) :
    (entry.after retryLimit write).partitioned = entry.partitioned := by
  unfold after
  split
  · rfl
  · split
    · split <;> rfl
    · rfl

theorem row_after (retryLimit : Int) (entry : TableRow) (write : Write) :
    (entry.after retryLimit write).row =
      if write.isOnRow then entry.row.record retryLimit write.sets else entry.row := by
  unfold after
  split
  · rfl
  · split
    · split <;> rfl
    · rfl

/-- The row of a table follows the statuses that are written on it. -/
theorem row_foldl_after (writes : List Write) (entry : TableRow) :
    (writes.foldl (after retryLimit) entry).row =
      (writes.filter Write.isOnRow).foldl (fun row write => row.record retryLimit write.sets)
        entry.row := by
  induction writes generalizing entry with
  | nil => rfl
  | cons write rest hyp =>
    rw [List.foldl_cons, hyp, row_after]
    by_cases onRow : write.isOnRow = true
    · rw [if_pos onRow, List.filter_cons_of_pos onRow, List.foldl_cons]
    · rw [if_neg onRow, List.filter_cons_of_neg onRow]

/-- All partitions of a table that was registered wait. -/
theorem waits_register (table : Table) (config : TableConfig) (key : String) :
    (register table config).waits key = true := by
  have keeps : ∀ (partitions : List Partition) (rows : Keyed Row),
      (rows.get? key).all (fun row => row.status != .succeeded) = true →
      ((partitions.foldl (fun rows partition => rows.put partition.key .fresh) rows).get? key).all
        (fun row => row.status != .succeeded) = true := by
    intro partitions
    induction partitions with
    | nil => exact fun _ => id
    | cons partition rest hyp =>
      intro rows waits
      refine hyp _ ?_
      dsimp only
      by_cases same : partition.key = key
      · rw [same, Keyed.get?_put_self]
        rfl
      · rwa [Keyed.get?_put_of_ne _ _ same]
  exact keeps table.partitions [] rfl

/-- A status that is written on one partition. -/
theorem waits_put (entry : TableRow) (status : Status) (row : Row) (first key : String) :
    waits { entry with
        partitions := entry.partitions.put first (row.record retryLimit status) } key =
      if first = key then status != .succeeded else entry.waits key := by
  unfold waits
  by_cases same : first = key
  · subst same
    rw [if_pos rfl, Keyed.get?_put_self, Option.all_some, Bool.eq_iff_iff, bne_iff_ne, bne_iff_ne]
    exact not_congr (row.status_record retryLimit status)
  · rw [if_neg same, Keyed.get?_put_of_ne _ _ same]

/-- A status that is written on some partitions. -/
theorem waits_recordPartitions (entry : TableRow) (status : Status) (partitions : List Partition)
    (key : String) : (entry.recordPartitions retryLimit status partitions).waits key =
      if partitions.any fun partition => partition.key == key then status != .succeeded
      else entry.waits key := by
  induction partitions generalizing entry with
  | nil => rfl
  | cons partition rest hyp =>
    let row := (entry.partitions.get? partition.key).getD .fresh
    have later := hyp { entry with
      partitions := entry.partitions.put partition.key (row.record retryLimit status) }
    rw [waits_put] at later
    refine later.trans ?_
    rw [List.any_cons]
    by_cases behind : (rest.any fun partition => partition.key == key) = true
    · rw [if_pos behind, behind, Bool.or_true, if_pos rfl]
    · rw [if_neg behind, Bool.eq_false_iff.mpr behind, Bool.or_false]
      simp only [beq_iff_eq]

/-- A write on a table with partitions decides about those that it touches, and no others. -/
theorem waits_after (partitioned : entry.partitioned = true) (write : Write) (key : String) :
    (entry.after retryLimit write).waits key =
      if write.touches key then write.sets != .succeeded else entry.waits key := by
  unfold after
  by_cases row : write.isOnRow = true
  · rw [if_pos row, Write.touches_of_isOnRow row, if_neg Bool.false_ne_true]
    rfl
  · rw [if_neg row]
    cases write with
    | failure => exact absurd rfl row
    | status database name partitions status =>
      dsimp only
      rw [if_pos partitioned, waits_recordPartitions]
      rfl

/-- Partitions that no write touches wait as before. -/
theorem waits_foldl_after_of_not (partitioned : entry.partitioned = true)
    (untouched : ∀ write ∈ writes, write.touches key = false) :
    (writes.foldl (after retryLimit) entry).waits key = entry.waits key := by
  induction writes generalizing entry with
  | nil => rfl
  | cons write rest hyp =>
    obtain ⟨first, others⟩ := List.forall_mem_cons.mp untouched
    rw [List.foldl_cons, hyp ((partitioned_after ..).trans partitioned) others,
      waits_after partitioned, first, if_neg Bool.false_ne_true]

/-- **A partition waits unless the writes on it were of success**, all of them or none. -/
theorem waits_foldl_after {migrated : Bool} (partitioned : entry.partitioned = true)
    (alike : ∀ write ∈ writes, write.touches key = true →
      (write.sets != .succeeded) = !migrated)
    (touched : ∃ write ∈ writes, write.touches key = true) :
    (writes.foldl (after retryLimit) entry).waits key = !migrated := by
  induction writes generalizing entry with
  | nil =>
    obtain ⟨_, member, _⟩ := touched
    cases member
  | cons write rest hyp =>
    obtain ⟨first, others⟩ := List.forall_mem_cons.mp alike
    have partitioned' : (entry.after retryLimit write).partitioned = true :=
      (partitioned_after ..).trans partitioned
    rw [List.foldl_cons]
    by_cases later : ∃ other ∈ rest, other.touches key = true
    · exact hyp partitioned' others later
    · have untouched : ∀ other ∈ rest, other.touches key = false :=
        fun other member => Bool.eq_false_iff.mpr fun touches => later ⟨other, member, touches⟩
      have touches : write.touches key = true := by
        obtain ⟨only, member, touches⟩ := touched
        rcases List.mem_cons.mp member with rfl | behind
        · exact touches
        · exact absurd ⟨only, behind, touches⟩ later
      rw [waits_foldl_after_of_not partitioned' untouched, waits_after partitioned, if_pos touches,
        first touches]

/-! ### Rows that tell the same -/

variable {first second : TableRow}

/-- Whether two rows of a table tell the same of the table and of every partition. -/
structure Alike (first second : TableRow) : Prop where
  row : first.row = second.row
  partitions : ∀ key, first.partitions.get? key = second.partitions.get? key

/-- Whether two rows of a table tell the same of a partition. -/
structure AlikeUnder (key : String) (first second : TableRow) : Prop where
  partitioned : first.partitioned = second.partitioned
  partition : first.partitions.get? key = second.partitions.get? key

/-- A status that is written on some partitions. -/
theorem get?_recordPartitions_congr (status : Status) (partitions : List Partition)
    (same : first.partitions.get? key = second.partitions.get? key) :
    (first.recordPartitions retryLimit status partitions).partitions.get? key =
      (second.recordPartitions retryLimit status partitions).partitions.get? key := by
  induction partitions generalizing first second with
  | nil => exact same
  | cons partition rest hyp =>
    let record (entry : TableRow) : TableRow := { entry with
      partitions := entry.partitions.put partition.key
        (((entry.partitions.get? partition.key).getD .fresh).record retryLimit status) }
    refine @hyp (record first) (record second) ?_
    by_cases mine : partition.key = key
    · subst mine
      simp only [record, Keyed.get?_put_self, same]
    · simp only [record, Keyed.get?_put_of_ne _ _ mine, same]

/-- A status that is written on other partitions. -/
theorem get?_recordPartitions_of_not (entry : TableRow) (status : Status)
    {partitions : List Partition} (apart : ∀ partition ∈ partitions, partition.key ≠ key) :
    (entry.recordPartitions retryLimit status partitions).partitions.get? key =
      entry.partitions.get? key := by
  induction partitions generalizing entry with
  | nil => rfl
  | cons partition rest hyp =>
    obtain ⟨other, others⟩ := List.forall_mem_cons.mp apart
    let record : TableRow := { entry with
      partitions := entry.partitions.put partition.key
        (((entry.partitions.get? partition.key).getD .fresh).record retryLimit status) }
    exact (hyp record others).trans (Keyed.get?_put_of_ne _ _ other)

theorem AlikeUnder.after (alike : AlikeUnder key first second) (write : Write) :
    AlikeUnder key (first.after retryLimit write) (second.after retryLimit write) := by
  refine ⟨?_, ?_⟩
  · rw [partitioned_after, partitioned_after, alike.partitioned]
  · unfold TableRow.after
    split
    · exact alike.partition
    · split
      · rw [alike.partitioned]
        split
        · exact get?_recordPartitions_congr _ _ alike.partition
        · exact alike.partition
      · exact alike.partition

/-- A write leaves the partitions alone that it does not touch. -/
theorem alikeUnder_after (entry : TableRow) (apart : write.touches key = false) :
    AlikeUnder key (entry.after retryLimit write) entry := by
  refine ⟨partitioned_after .., ?_⟩
  unfold TableRow.after
  split
  · rfl
  · cases write with
    | failure => rfl
    | status database name partitions status =>
      dsimp only
      split
      · refine get?_recordPartitions_of_not entry status fun partition member same => ?_
        have touches : partitions.any (fun partition => partition.key == key) = true :=
          List.any_eq_true.mpr ⟨partition, member, beq_iff_eq.mpr same⟩
        exact Bool.false_ne_true (apart.symm.trans touches)
      · rfl

theorem AlikeUnder.trans {third : TableRow} (one : AlikeUnder key first second)
    (other : AlikeUnder key second third) : AlikeUnder key first third :=
  ⟨one.partitioned.trans other.partitioned, one.partition.trans other.partition⟩

/-- **What is known of a partition follows the writes that touch it.** -/
theorem AlikeUnder.foldl_after (alike : AlikeUnder key first second) (writes : List Write) :
    AlikeUnder key (writes.foldl (TableRow.after retryLimit) first)
      ((writes.filter fun write => write.touches key).foldl (TableRow.after retryLimit)
        second) := by
  induction writes generalizing first second with
  | nil => exact alike
  | cons write rest hyp =>
    by_cases touches : write.touches key = true
    · rw [List.filter_cons_of_pos (p := fun write : Write => write.touches key) touches]
      exact hyp (alike.after write)
    · rw [List.filter_cons_of_neg (p := fun write : Write => write.touches key) touches]
      have apart := Bool.eq_false_iff.mpr touches
      exact hyp ((alikeUnder_after first apart).trans alike)

/-- Writes with the same on the row of the table and on every partition leave the same. -/
theorem alike_foldl_after {writes writes' : List Write} (entry : TableRow)
    (rows : writes.filter Write.isOnRow = writes'.filter Write.isOnRow)
    (partitions : ∀ key, (writes.filter fun write => write.touches key) =
      writes'.filter fun write => write.touches key) :
    Alike (writes.foldl (after retryLimit) entry) (writes'.foldl (after retryLimit) entry) := by
  refine ⟨?_, fun key => ?_⟩
  · rw [row_foldl_after, row_foldl_after, rows]
  · have refl : AlikeUnder key entry entry := ⟨rfl, rfl⟩
    rw [(refl.foldl_after writes).partition, (refl.foldl_after writes').partition, partitions key]

end TableRow

/-! ### Memories -/

namespace Memory

variable {memory : Memory} {name : String} {entry : TableRow}

/-- A memory after a write. -/
def after (memory : Memory) (write : Write) : Memory :=
  match memory.perform write with
  | .ok (changed, _) => changed
  | .error _ => memory

theorem updateStatus_of_absent {database table : String} (partitions : List Partition)
    (status : Status) (absent : memory.tables.get? (Table.joinNames database table) = none) :
    memory.updateStatus database table partitions status =
      .error (.tableUnknown (Table.joinNames database table)) := by
  unfold updateStatus find
  rw [absent]
  rfl

theorem updateStatus_of_found {database table : String} (partitions : List Partition)
    (status : Status) (found : memory.tables.get? (Table.joinNames database table) = some entry) :
    memory.updateStatus database table partitions status =
      if partitions.isEmpty then
        .ok (memory.put database table
            { entry with row := entry.row.record memory.retryLimit status },
          [.tableStatus (Table.joinNames database table)
            (entry.row.record memory.retryLimit status).status])
      else if entry.partitioned then
        .ok (memory.put database table
          (entry.recordPartitions memory.retryLimit status partitions), [])
      else .error (.notPartitioned (Table.joinNames database table)) := by
  unfold updateStatus find
  rw [found]
  rfl

theorem after_of_absent {write : Write} (absent : memory.tables.get? write.fullName = none) :
    memory.after write = memory := by
  unfold after
  cases write with
  | status database table partitions status =>
    rw [perform, updateStatus_of_absent partitions status absent]
  | failure database table => rw [perform, updateStatus_of_absent [] .failed absent]

/-- A write changes the rows that it finds, or fails where they stay as they are. -/
theorem after_of_found {write : Write} (found : memory.tables.get? write.fullName = some entry) :
    memory.after write = memory ∧ entry.after memory.retryLimit write = entry ∨
      memory.after write = { memory with
        tables := memory.tables.put write.fullName (entry.after memory.retryLimit write) } := by
  unfold after TableRow.after
  cases write with
  | failure database table =>
    rw [perform, updateStatus_of_found [] .failed found]
    exact .inr rfl
  | status database table partitions status =>
    rw [perform, updateStatus_of_found partitions status found]
    unfold Write.isOnRow
    by_cases empty : partitions.isEmpty = true
    · rw [if_pos empty, if_pos empty]
      exact .inr rfl
    · rw [if_neg empty, if_neg empty]
      by_cases partitioned : entry.partitioned = true
      · rw [if_pos partitioned]
        dsimp only
        rw [if_pos partitioned]
        exact .inr rfl
      · rw [if_neg partitioned]
        exact .inl ⟨rfl, if_neg partitioned⟩

theorem retryLimit_after (memory : Memory) (write : Write) :
    (memory.after write).retryLimit = memory.retryLimit := by
  cases found : memory.tables.get? write.fullName with
  | none => rw [after_of_absent found]
  | some entry =>
    rcases after_of_found found with ⟨same, _⟩ | same <;> rw [same]

/-- The rows of a table change by the writes on its full name. -/
theorem get?_after (found : memory.tables.get? name = some entry) (write : Write) :
    (memory.after write).tables.get? name = some (if write.fullName = name then
      entry.after memory.retryLimit write else entry) := by
  by_cases mine : write.fullName = name
  · rw [if_pos mine]
    subst mine
    rcases after_of_found found with ⟨same, still⟩ | same
    · rw [same, still, found]
    · rw [same, Keyed.get?_put_self]
  · rw [if_neg mine]
    cases other : memory.tables.get? write.fullName with
    | none => rw [after_of_absent other, found]
    | some row =>
      rcases after_of_found other with ⟨same, _⟩ | same
      · rw [same, found]
      · rw [same, Keyed.get?_put_of_ne _ _ mine, found]

theorem retryLimit_foldl_after (writes : List Write) (memory : Memory) :
    (writes.foldl after memory).retryLimit = memory.retryLimit := by
  induction writes generalizing memory with
  | nil => rfl
  | cons write rest hyp => rw [List.foldl_cons, hyp, retryLimit_after]

/-- **The rows of a table follow the writes on its full name.** -/
theorem get?_foldl_after (found : memory.tables.get? name = some entry) (writes : List Write) :
    (writes.foldl after memory).tables.get? name =
      some ((writes.filter fun write => write.fullName == name).foldl
        (TableRow.after memory.retryLimit) entry) := by
  induction writes generalizing memory entry with
  | nil => exact found
  | cons write rest hyp =>
    rw [List.foldl_cons, hyp (get?_after found write), retryLimit_after]
    by_cases mine : write.fullName = name
    · rw [if_pos mine, List.filter_cons_of_pos (by exact beq_iff_eq.mpr mine), List.foldl_cons]
    · rw [if_neg mine, List.filter_cons_of_neg (by exact beq_iff_eq.not.mpr mine)]

/-- Whether two memories know the same tables, and tell the same of each and its partitions. -/
def Alike (first second : Memory) : Prop :=
  ∀ name, Option.Rel TableRow.Alike (first.tables.get? name) (second.tables.get? name)

/-- A write registers no table. -/
theorem get?_after_of_absent (absent : memory.tables.get? name = none) (write : Write) :
    (memory.after write).tables.get? name = none := by
  cases found : memory.tables.get? write.fullName with
  | none => rw [after_of_absent found, absent]
  | some entry =>
    rcases after_of_found found with ⟨same, _⟩ | put
    · rw [same, absent]
    · have apart : write.fullName ≠ name := by
        rintro rfl
        cases found.symm.trans absent
      rw [put]
      exact (Keyed.get?_put_of_ne _ _ apart).trans absent

theorem get?_foldl_after_of_absent (absent : memory.tables.get? name = none)
    (writes : List Write) : (writes.foldl after memory).tables.get? name = none := by
  induction writes generalizing memory with
  | nil => exact absent
  | cons write rest hyp => exact hyp (get?_after_of_absent absent write)

/-- **Writes with the same on the row of every table and on every partition leave the same.** -/
theorem alike_foldl_after {written written' : List (StoreRef × Write)} (memory : Memory)
    (rows : ∀ name, Write.onRow written name = Write.onRow written' name)
    (partitions : ∀ name key,
      Write.onPartition written name key = Write.onPartition written' name key) :
    ((written.map Prod.snd).foldl after memory).Alike
      ((written'.map Prod.snd).foldl after memory) := by
  intro name
  cases found : memory.tables.get? name with
  | none =>
    rw [get?_foldl_after_of_absent found, get?_foldl_after_of_absent found]
    exact .none
  | some entry =>
    rw [get?_foldl_after found, get?_foldl_after found]
    refine .some (TableRow.alike_foldl_after entry ?_ fun key => ?_)
    · rw [Write.filter_isOnRow, Write.filter_isOnRow, rows]
    · have touching : ∀ written : List (StoreRef × Write),
          (((written.map Prod.snd).filter fun write => write.fullName == name).filter fun write =>
            write.touches key) = (Write.onPartition written name key).map Prod.snd := by
        intro written
        unfold Write.onPartition
        rw [List.filter_filter, List.filter_map]
        exact congrArg _ (List.filter_congr fun call _ => Bool.and_comm _ _)
      rw [touching, touching, partitions]

end Memory

/-! ### One memory for a run -/

namespace Engines

variable {σ : Type}

/-- Whether some stores are one and the same, as part of a state that calls of engines leave as it
is. -/
structure Keep (engines : Engines σ) (store : σ → FaultyStore) : Prop where
  config : ∀ ref database table state,
    (engines.backend.config ref database table state).1 =
        (FaultyStore.backend.config ref database table (store state)).1 ∧
      store (engines.backend.config ref database table state).2 =
        (FaultyStore.backend.config ref database table (store state)).2
  write : ∀ ref write state,
    (engines.backend.write ref write state).1 =
        (FaultyStore.backend.write ref write (store state)).1 ∧
      store (engines.backend.write ref write state).2 =
        (FaultyStore.backend.write ref write (store state)).2
  call : ∀ engine number task action state,
    store (engines.call engine number task action state).2 = store state

/-- Reading from stores without faults. -/
theorem Keep.configured {engines : Engines σ} {store : σ → FaultyStore} (keep : engines.Keep store)
    {state : σ} (sound : ∀ sort, (store state).fault sort = none) (ref : StoreRef)
    (database table : String) :
    (engines.backend.config ref database table state).1 = (store state).config database table ∧
      store (engines.backend.config ref database table state).2 = store state := by
  obtain ⟨answer, after⟩ := keep.config ref database table state
  rw [answer, after]
  unfold FaultyStore.backend
  dsimp only
  rw [sound]
  exact ⟨rfl, rfl⟩

/-- A write on stores without faults is one on their memory. -/
theorem Keep.written {engines : Engines σ} {store : σ → FaultyStore} (keep : engines.Keep store)
    {state : σ} (sound : ∀ sort, (store state).fault sort = none) (ref : StoreRef) (write : Write) :
    store (engines.backend.write ref write state).2 =
      ⟨(store state).memory.after write, (store state).fault⟩ := by
  rw [(keep.write ref write state).2]
  unfold FaultyStore.backend
  dsimp only
  rw [sound]
  unfold FaultyStore.write Memory.after
  dsimp only
  cases (store state).memory.perform write <;> rfl

/-- **The memory follows the writes.** -/
theorem Goes.memory {engines : Engines σ} {store : σ → FaultyStore} (keep : engines.Keep store)
    {start last : σ} {writes : List (StoreRef × Write)} (goes : engines.Goes start writes last)
    (sound : ∀ sort, (store start).fault sort = none) :
    store last =
      ⟨(writes.map Prod.snd).foldl Memory.after (store start).memory, (store start).fault⟩ := by
  induction goes with
  | refl => rfl
  | write goes ref write hyp =>
    rw [keep.written (by rw [hyp]; exact sound), hyp, List.map_append, List.foldl_append]
    rfl
  | call goes engine number task action hyp => rw [keep.call, hyp]

end Engines

end TableMigration
