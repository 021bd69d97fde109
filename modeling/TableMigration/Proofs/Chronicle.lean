/-
**What a memory keeps of its past.**

* `Row.ofStatuses` — the row of something on which some statuses were written: the failures among
  them are counted, and the last of them decides what the row says.
* `Memory.Request` — what can be asked of a memory. The requests that it grants, in their order,
  are its chronicle (`Memory.granted`); a request that it refuses leaves it as it is.
* `Chronicle` — what a chronicle tells: which tables were registered, what is set for them, which
  statuses were written on their rows and on the rows of their partitions, and which requests are
  refused.
* `Memory.recounts_granted` — a memory is what its chronicle tells, whatever was asked of it.
-/

import TableMigration.Proofs.Rows

namespace TableMigration

/-! ### One row -/

namespace Row

/-- The row on which some statuses were written, one after the other. -/
def ofStatuses (retryLimit : Int) (written : List Status) : Row where
  status := match written.getLast? with
    | none => .pending
    | some .failed => if retryLimit < written.count .failed then .failed else .pending
    | some other => other
  attempts := written.count .failed

/-- A status that is written is one more in the past of a row. -/
theorem record_ofStatuses (retryLimit : Int) (written : List Status) (status : Status) :
    (ofStatuses retryLimit written).record retryLimit status =
      ofStatuses retryLimit (written ++ [status]) := by
  cases status with
  | failed =>
    have counted : (written ++ [Status.failed]).count .failed = written.count .failed + 1 := by simp
    simp only [ofStatuses, record, Status.afterFailure, List.getLast?_concat, counted]
    rfl
  | _ => simp [ofStatuses, record]

/-- A success does not make the failures forgotten. -/
example : ofStatuses 1 [.failed, .succeeded, .failed] = ⟨.failed, 2⟩ := by decide

/-- The row of something that has one if it was known from the beginning, or if anything was written
on it. -/
def ofStatuses? (retryLimit : Int) (known : Bool) (written : List Status) : Option Row :=
  if known ∨ written ≠ [] then some (ofStatuses retryLimit written) else none

/-- A row that is not there yet is a fresh one when it is written. -/
theorem getD_ofStatuses? (retryLimit : Int) (known : Bool) (written : List Status) :
    (ofStatuses? retryLimit known written).getD .fresh = ofStatuses retryLimit written := by
  unfold ofStatuses?
  split
  · rfl
  · rename_i absent
    obtain ⟨_, rfl⟩ : ¬ known ∧ written = [] := by simpa using absent
    rfl

/-- What was written last decides whether a row says that all is done. -/
theorem waits_ofStatuses? (retryLimit : Int) (known : Bool) (written : List Status) :
    (ofStatuses? retryLimit known written).all (fun row => row.status != .succeeded) =
      (written.getLast? != some .succeeded) := by
  unfold ofStatuses?
  split
  · unfold ofStatuses
    rw [Option.all_some]
    cases written.getLast? with
    | none => rfl
    | some last =>
      cases last with
      | failed =>
        dsimp only
        split <;> rfl
      | _ => rfl
  · rename_i absent
    obtain ⟨_, rfl⟩ : ¬ known ∧ written = [] := by simpa using absent
    rfl

end Row

/-! ### Requests -/

namespace Memory

/-- What can be asked of a memory. What only reads it returns no memory, and is no request. -/
inductive Request where
  | addTable (table : Table) (config : TableConfig)
  | setConfig (database name : String) (config : TableConfig)
  | write (write : Write)

/-- Do what is asked. -/
def serve (memory : Memory) : Request → Except StoreError Memory
  | .addTable table config => memory.addTable table config
  | .setConfig database name config => memory.setConfig database name config
  | .write write => (memory.perform write).map Prod.fst

/-- The memory after a request. One that is refused leaves it as it is. -/
def served (memory : Memory) (request : Request) : Memory :=
  (memory.serve request).toOption.getD memory

/-- The memory after some requests. -/
def servedAll (memory : Memory) (requests : List Request) : Memory :=
  requests.foldl served memory

/-- Those of some requests that are granted, if they are made one after the other. -/
def granted (memory : Memory) : List Request → List Request
  | [] => []
  | request :: rest =>
    match memory.serve request with
    | .ok changed => request :: changed.granted rest
    | .error _ => memory.granted rest

variable {memory changed : Memory} {request : Request} {requests : List Request}

theorem served_of_ok (grants : memory.serve request = .ok changed) :
    memory.served request = changed := by
  simp [served, grants, Except.toOption]

theorem served_of_error {error : StoreError} (refuses : memory.serve request = .error error) :
    memory.served request = memory := by
  simp [served, refuses, Except.toOption]

/-- **Requests that are refused contribute nothing.** -/
theorem servedAll_granted (memory : Memory) (requests : List Request) :
    memory.servedAll (memory.granted requests) = memory.servedAll requests := by
  induction requests generalizing memory with
  | nil => rfl
  | cons request rest hyp =>
    cases answer : memory.serve request with
    | ok changed =>
      simp only [granted, answer, servedAll, List.foldl_cons, served_of_ok answer]
      exact hyp changed
    | error error =>
      simp only [granted, answer, servedAll, List.foldl_cons, served_of_error answer]
      exact hyp memory

end Memory

/-! ### Chronicles -/

namespace Memory.Request

/-- The table that a request registers under a full name. -/
def table? (name : String) : Request → Option Table
  | .addTable table _ => if table.fullName = name then some table else none
  | .setConfig .. | .write _ => none

/-- What a request sets for the table with a full name. -/
def config? (name : String) : Request → Option TableConfig
  | .addTable table config => if table.fullName = name then some config else none
  | .setConfig database table config =>
    if Table.joinNames database table = name then some config else none
  | .write _ => none

/-- The statuses that a request writes on the row of a table. -/
def onRow (name : String) : Request → List Status
  | .write (.status database table [] status) =>
    if Table.joinNames database table = name then [status] else []
  | .write (.failure database table) =>
    if Table.joinNames database table = name then [.failed] else []
  | .addTable .. | .setConfig .. | .write (.status _ _ (_ :: _) _) => []

/-- The statuses that a request writes on the row of a partition: one for every partition with this
key that it names. -/
def onPartition (name key : String) : Request → List Status
  | .write (.status database table partitions status) =>
    if Table.joinNames database table = name then
      .replicate (partitions.countP fun partition => partition.key == key) status
    else []
  | .addTable .. | .setConfig .. | .write (.failure ..) => []

end Memory.Request

/-- The requests that a memory has granted, in their order. -/
abbrev Chronicle := List Memory.Request

namespace Chronicle

/-- The table that was registered under a full name. -/
def table? (chronicle : Chronicle) (name : String) : Option Table :=
  chronicle.findSome? (Memory.Request.table? name)

/-- What was set last for the table with a full name. -/
def config? (chronicle : Chronicle) (name : String) : Option TableConfig :=
  (chronicle.filterMap (Memory.Request.config? name)).getLast?

/-- The statuses that were written on the row of a table. -/
def onRow (chronicle : Chronicle) (name : String) : List Status :=
  chronicle.flatMap (Memory.Request.onRow name)

/-- The statuses that were written on the row of a partition. -/
def onPartition (chronicle : Chronicle) (name key : String) : List Status :=
  chronicle.flatMap (Memory.Request.onPartition name key)

/-- The row of a partition, which is there if the partition was registered with its table or was
written. -/
def partitionRow? (chronicle : Chronicle) (retryLimit : Int) (table : Table) (key : String) :
    Option Row :=
  Row.ofStatuses? retryLimit (table.partitions.any fun partition => partition.key == key)
    (chronicle.onPartition table.fullName key)

/-- The table that was registered under a full name, or why there is none. -/
def find (chronicle : Chronicle) (database name : String) : Except StoreError Table :=
  match chronicle.table? (Table.joinNames database name) with
  | some table => .ok table
  | none => .error (.tableUnknown (Table.joinNames database name))

/-- Why a request is refused. -/
def refusal? (chronicle : Chronicle) : Memory.Request → Option StoreError
  | .addTable table config =>
    match config.groupSize.filter (· ≤ 0) with
    | some size => some (.invalidGroupSize size)
    | none => (chronicle.table? table.fullName).map fun _ => .tableExists table.fullName
  | .setConfig database name _ =>
    match chronicle.table? (Table.joinNames database name) with
    | some _ => none
    | none => some (.tableUnknown (Table.joinNames database name))
  | .write write =>
    match chronicle.table? write.fullName with
    | some table =>
      if write.isOnRow || table.isPartitioned then none else some (.notPartitioned write.fullName)
    | none => some (.tableUnknown write.fullName)

end Chronicle

/-! ### What a request adds to a chronicle -/

namespace Memory.Request

/-- The full name of the table that a request is about. -/
def fullName : Request → String
  | .addTable table _ => table.fullName
  | .setConfig database name _ => Table.joinNames database name
  | .write change => change.fullName

variable {request : Request} {name : String}

/-- A request tells nothing of other tables. -/
theorem silent_of_ne (apart : request.fullName ≠ name) :
    request.table? name = none ∧ request.config? name = none ∧ request.onRow name = [] ∧
      ∀ key, request.onPartition name key = [] := by
  cases request with
  | addTable table config => exact ⟨if_neg apart, if_neg apart, rfl, fun _ => rfl⟩
  | setConfig database table config => exact ⟨rfl, if_neg apart, rfl, fun _ => rfl⟩
  | write change =>
    cases change with
    | failure database table => exact ⟨rfl, rfl, if_neg apart, fun _ => rfl⟩
    | status database table partitions status =>
      refine ⟨rfl, rfl, ?_, fun _ => if_neg apart⟩
      cases partitions with
      | nil => exact if_neg apart
      | cons => rfl

end Memory.Request

namespace Chronicle

variable (chronicle : Chronicle) (request : Memory.Request) (name key : String)

theorem table?_append : Chronicle.table? (chronicle ++ [request]) name =
    (chronicle.table? name).or (request.table? name) := by
  unfold Chronicle.table?
  rw [List.findSome?_append, List.findSome?_singleton]

theorem config?_append : Chronicle.config? (chronicle ++ [request]) name =
    (request.config? name).or (chronicle.config? name) := by
  unfold Chronicle.config?
  rw [List.filterMap_append, List.getLast?_append]
  cases told : request.config? name <;> simp [told]

theorem onRow_append : Chronicle.onRow (chronicle ++ [request]) name =
    chronicle.onRow name ++ request.onRow name := by
  simp [Chronicle.onRow]

theorem onPartition_append : Chronicle.onPartition (chronicle ++ [request]) name key =
    chronicle.onPartition name key ++ request.onPartition name key := by
  simp [Chronicle.onPartition]

variable {chronicle request name key} {table : Table}

/-- A table that is registered stays so. -/
theorem table?_append_of_some (registered : chronicle.table? name = some table) :
    Chronicle.table? (chronicle ++ [request]) name = some table := by
  rw [table?_append, registered, Option.some_or]

/-- The row of a partition stays as it is if nothing is written on it. -/
theorem partitionRow?_append (retryLimit : Int)
    (silent : request.onPartition table.fullName key = []) :
    partitionRow? (chronicle ++ [request]) retryLimit table key =
      chronicle.partitionRow? retryLimit table key := by
  unfold partitionRow?
  rw [onPartition_append, silent, List.append_nil]

/-- A table is registered under its own full name. -/
theorem fullName_of_table? (registered : chronicle.table? name = some table) :
    table.fullName = name := by
  obtain ⟨request, _, told⟩ := List.exists_of_findSome?_eq_some registered
  cases request with
  | addTable =>
    obtain ⟨same, found⟩ := Option.ite_none_right_eq_some.mp told
    exact Option.some.inj found ▸ same
  | _ => cases told

end Chronicle

/-! ### Rows of a table as a chronicle tells them -/

namespace TableRow

variable {retryLimit : Int} {chronicle : Chronicle} {entry : TableRow} {table : Table}
  {request : Memory.Request}

/-- Whether the rows of a table are what a chronicle tells of it. -/
structure Recounts (retryLimit : Int) (chronicle : Chronicle) (entry : TableRow) (table : Table) :
    Prop where
  partitioned : entry.partitioned = table.isPartitioned
  config : chronicle.config? table.fullName = some entry.config
  row : entry.row = .ofStatuses retryLimit (chronicle.onRow table.fullName)
  partitions : ∀ key, entry.partitions.get? key = chronicle.partitionRow? retryLimit table key

/-- Requests about other tables change nothing in what is told of a table. -/
theorem Recounts.append_of_ne (recounts : entry.Recounts retryLimit chronicle table)
    (apart : request.fullName ≠ table.fullName) :
    entry.Recounts retryLimit (chronicle ++ [request]) table := by
  obtain ⟨_, config, row, partition⟩ := Memory.Request.silent_of_ne apart
  refine ⟨recounts.partitioned, ?_, ?_, fun key => ?_⟩
  · rw [Chronicle.config?_append, config, Option.none_or, recounts.config]
  · rw [Chronicle.onRow_append, row, List.append_nil, recounts.row]
  · rw [Chronicle.partitionRow?_append retryLimit (partition key), recounts.partitions]

/-- A table that was registered has a fresh row for every partition that it has. -/
theorem get?_register (table : Table) (config : TableConfig) (key : String) :
    (register table config).partitions.get? key =
      Row.ofStatuses? retryLimit (table.partitions.any fun partition => partition.key == key)
        [] := by
  have puts : ∀ (partitions : List Partition) (rows : Keyed Row),
      (partitions.foldl (fun rows partition => rows.put partition.key .fresh) rows).get? key =
        if partitions.any fun partition => partition.key == key then some .fresh
        else rows.get? key := by
    intro partitions
    induction partitions with
    | nil => exact fun _ => rfl
    | cons partition rest hyp =>
      intro rows
      rw [List.foldl_cons, hyp]
      by_cases same : partition.key = key
      · simp [same, Keyed.get?_put_self]
      · simp [same, Keyed.get?_put_of_ne]
  refine (puts table.partitions []).trans ?_
  simp [Row.ofStatuses?, Keyed.get?, Row.ofStatuses, Row.fresh]

/-- **A status is written once for every partition with a key.** -/
theorem get?_recordPartitions (status : Status) (partitions : List Partition) {known : Bool}
    {key : String} {written : List Status}
    (before : entry.partitions.get? key = Row.ofStatuses? retryLimit known written) :
    (entry.recordPartitions retryLimit status partitions).partitions.get? key =
      Row.ofStatuses? retryLimit known (written ++
        .replicate (partitions.countP fun partition => partition.key == key) status) := by
  induction partitions generalizing entry written with
  | nil => simpa [recordPartitions] using before
  | cons partition rest hyp =>
    let row := (entry.partitions.get? partition.key).getD .fresh
    let first : TableRow := { entry with
      partitions := entry.partitions.put partition.key (row.record retryLimit status) }
    have steps : entry.recordPartitions retryLimit status (partition :: rest) =
      first.recordPartitions retryLimit status rest := rfl
    by_cases same : partition.key = key
    · have after : first.partitions.get? key =
          Row.ofStatuses? retryLimit known (written ++ [status]) := by
        have now : row = Row.ofStatuses retryLimit written := by
          rw [← Row.getD_ofStatuses? retryLimit known written, ← before, ← same]
        have recorded : known ∨ written ++ [status] ≠ [] := by simp
        rw [← same, Keyed.get?_put_self, now, Row.record_ofStatuses, Row.ofStatuses?, if_pos recorded]
      rw [steps, hyp after]
      simp [same, List.replicate_succ]
    · have after : first.partitions.get? key = Row.ofStatuses? retryLimit known written :=
        (Keyed.get?_put_of_ne _ _ same).trans before
      rw [steps, hyp after]
      simp [same]

end TableRow

/-! ### Memories as a chronicle tells them -/

namespace Memory

variable {retryLimit : Int} {chronicle : Chronicle} {memory changed : Memory} {request : Request}
  {table : Table} {entry : TableRow} {name : String}

/-- Whether a memory is what a chronicle tells, and nothing is told of tables that are not
registered. -/
structure Recounts (retryLimit : Int) (chronicle : Chronicle) (memory : Memory) : Prop where
  limit : memory.retryLimit = retryLimit
  rows : ∀ name, Option.Rel (TableRow.Recounts retryLimit chronicle) (memory.tables.get? name)
    (chronicle.table? name)
  silent : ∀ name, chronicle.table? name = none →
    chronicle.onRow name = [] ∧ ∀ key, chronicle.onPartition name key = []

/-- A table is known to the memory and to the chronicle, or to neither. -/
theorem Recounts.known (recounts : memory.Recounts retryLimit chronicle) (name : String) :
    (memory.tables.get? name = none ∧ chronicle.table? name = none) ∨
      ∃ entry table, memory.tables.get? name = some entry ∧ chronicle.table? name = some table ∧
        table.fullName = name ∧ entry.Recounts retryLimit chronicle table := by
  have rows := recounts.rows name
  cases told : chronicle.table? name with
  | none =>
    rw [told] at rows
    cases found : memory.tables.get? name with
    | none => exact .inl ⟨rfl, rfl⟩
    | some entry =>
      rw [found] at rows
      cases rows
  | some table =>
    rw [told] at rows
    cases found : memory.tables.get? name with
    | none =>
      rw [found] at rows
      cases rows
    | some entry =>
      rw [found] at rows
      cases rows with
      | some recounts =>
        exact .inr ⟨entry, table, rfl, rfl, Chronicle.fullName_of_table? told, recounts⟩

/-- **A request that is granted changes the rows of one table.** -/
theorem Recounts.put (recounts : memory.Recounts retryLimit chronicle) (table : Table)
    (told : Chronicle.table? (chronicle ++ [request]) request.fullName = some table)
    (mine : entry.Recounts retryLimit (chronicle ++ [request]) table) :
    Recounts retryLimit (chronicle ++ [request])
      { memory with tables := memory.tables.put request.fullName entry } := by
  refine ⟨recounts.limit, fun name => ?_, fun name none => ?_⟩
  · by_cases same : request.fullName = name
    · rw [← same, Keyed.get?_put_self, told]
      exact .some mine
    · have silent := Request.silent_of_ne same
      rw [Keyed.get?_put_of_ne _ _ same, Chronicle.table?_append, silent.1, Option.or_none]
      rcases recounts.known name with ⟨absent, unknown⟩ | ⟨entry, table, found, known, named, tells⟩
      · rw [absent, unknown]
        exact .none
      · rw [found, known]
        exact .some (tells.append_of_ne (named.symm ▸ same))
  · by_cases same : request.fullName = name
    · rw [← same, told] at none
      cases none
    · obtain ⟨_, _, row, partition⟩ := Request.silent_of_ne same
      rw [Chronicle.table?_append] at none
      obtain ⟨rowBefore, before⟩ := recounts.silent name (Option.or_eq_none_iff.mp none).1
      refine ⟨?_, fun key => ?_⟩
      · rw [Chronicle.onRow_append, row, rowBefore, List.append_nil]
      · rw [Chronicle.onPartition_append, partition, before, List.append_nil]

/-- What comes of a request, by the chronicle: an error, or a memory that the chronicle tells with
one request more. -/
inductive Answers (retryLimit : Int) (chronicle : Chronicle) (memory : Memory) (request : Request) :
    Prop where
  | refuses (error : StoreError) (told : chronicle.refusal? request = some error)
      (answer : memory.serve request = .error error)
  | grants (changed : Memory) (told : chronicle.refusal? request = none)
      (answer : memory.serve request = .ok changed)
      (recounts : changed.Recounts retryLimit (chronicle ++ [request]))

theorem addTable_eq (memory : Memory) (table : Table) (config : TableConfig) :
    memory.addTable table config = match config.groupSize.filter (· ≤ 0) with
      | some size => .error (.invalidGroupSize size)
      | none =>
        if (memory.tables.get? table.fullName).isSome then .error (.tableExists table.fullName)
        else .ok (memory.put table.database table.name (.register table config)) := by
  unfold addTable addTable.register Keyed.contains
  cases config.groupSize with
  | none => rfl
  | some size =>
    by_cases valid : size ≤ 0
    · simp only [valid, if_true, Option.filter_some, decide_true]
    · simp only [valid, if_false, Option.filter_some, decide_false, Bool.false_eq_true]

/-- A table is registered unless its configuration is not valid or the chronicle has it. -/
theorem Recounts.addTable (recounts : memory.Recounts retryLimit chronicle) (table : Table)
    (config : TableConfig) : memory.Answers retryLimit chronicle (.addTable table config) := by
  have served : memory.serve (.addTable table config) = _ := addTable_eq memory table config
  have told : chronicle.refusal? (.addTable table config) = _ := Chronicle.refusal?.eq_1 ..
  cases size : config.groupSize.filter (· ≤ 0) with
  | some invalid =>
    rw [size] at served told
    exact .refuses _ told served
  | none =>
    rw [size] at served told
    rcases recounts.known table.fullName with ⟨absent, unknown⟩ | ⟨_, _, found, known, _⟩
    · rw [absent] at served
      rw [unknown] at told
      refine .grants _ told served (recounts.put table ?_ ⟨rfl, ?_, ?_, fun key => ?_⟩)
      · have mine : Request.table? table.fullName (.addTable table config) = some table :=
          if_pos rfl
        rw [Chronicle.table?_append]
        exact (congrArg₂ Option.or unknown mine).trans rfl
      · have set : Request.config? table.fullName (.addTable table config) = some config :=
          if_pos rfl
        rw [Chronicle.config?_append, set]
        rfl
      · rw [Chronicle.onRow_append, (recounts.silent _ unknown).1]
        rfl
      · unfold Chronicle.partitionRow?
        rw [Chronicle.onPartition_append, (recounts.silent _ unknown).2]
        exact TableRow.get?_register table config key
    · rw [found] at served
      rw [known] at told
      exact .refuses _ told served

/-- What is set for a table changes if the chronicle has the table. -/
theorem Recounts.setConfig (recounts : memory.Recounts retryLimit chronicle)
    (database name : String) (config : TableConfig) :
    memory.Answers retryLimit chronicle (.setConfig database name config) := by
  have served : memory.serve (.setConfig database name config) =
    (memory.find database name).bind fun entry =>
      .ok (memory.put database name { entry with config := config }) := rfl
  have told : chronicle.refusal? (.setConfig database name config) = _ := Chronicle.refusal?.eq_2 ..
  unfold find at served
  rcases recounts.known (Table.joinNames database name) with
    ⟨absent, unknown⟩ | ⟨entry, table, found, known, named, tells⟩
  · rw [absent] at served
    rw [unknown] at told
    exact .refuses _ told served
  · rw [found] at served
    rw [known] at told
    refine .grants _ told served (recounts.put table ?_
      ⟨tells.partitioned, ?_, ?_, fun key => ?_⟩)
    · exact Chronicle.table?_append_of_some known
    · have set : Request.config? table.fullName (.setConfig database name config) = some config :=
        if_pos named.symm
      rw [Chronicle.config?_append, set]
      rfl
    · rw [Chronicle.onRow_append, tells.row]
      exact congrArg _ (List.append_nil _).symm
    · rw [Chronicle.partitionRow?_append retryLimit rfl]
      exact tells.partitions key

/-! ### Writes -/

variable {write : Write}

/-- A write on the row of a table writes one status there, and nothing on partitions. -/
theorem Request.of_isOnRow (row : write.isOnRow = true) :
    onRow write.fullName (.write write) = [write.sets] ∧
      ∀ key, onPartition write.fullName key (.write write) = [] := by
  cases write with
  | failure => exact ⟨if_pos rfl, fun _ => rfl⟩
  | status database table partitions status =>
    obtain rfl : partitions = [] := List.isEmpty_iff.mp row
    exact ⟨if_pos rfl, fun _ => ite_self []⟩

theorem serve_write_of_absent (absent : memory.tables.get? write.fullName = none) :
    memory.serve (.write write) = .error (.tableUnknown write.fullName) := by
  unfold serve perform
  cases write with
  | failure database table =>
    dsimp only
    rw [updateStatus_of_absent [] .failed absent]
    rfl
  | status database table partitions status =>
    dsimp only
    rw [updateStatus_of_absent partitions status absent]
    rfl

theorem serve_write_of_isOnRow (found : memory.tables.get? write.fullName = some entry)
    (row : write.isOnRow = true) : memory.serve (.write write) = .ok { memory with
      tables := memory.tables.put write.fullName
        { entry with row := entry.row.record memory.retryLimit write.sets } } := by
  unfold serve perform
  cases write with
  | failure database table =>
    dsimp only
    rw [updateStatus_of_found [] .failed found]
    rfl
  | status database table partitions status =>
    obtain rfl : partitions = [] := List.isEmpty_iff.mp row
    dsimp only
    rw [updateStatus_of_found [] status found]
    rfl

theorem serve_write_of_partitions {database : String} {partitions : List Partition}
    {status : Status} (found : memory.tables.get? (Table.joinNames database name) = some entry)
    (filled : partitions.isEmpty = false) :
    memory.serve (.write (.status database name partitions status)) =
      if entry.partitioned then .ok { memory with
        tables := memory.tables.put (Table.joinNames database name)
          (entry.recordPartitions memory.retryLimit status partitions) }
      else .error (.notPartitioned (Table.joinNames database name)) := by
  unfold serve perform
  dsimp only
  rw [updateStatus_of_found partitions status found, filled, if_neg Bool.false_ne_true]
  split <;> rfl

/-- **A write is granted iff the chronicle has the table, and the table has what is written on.** -/
theorem Recounts.perform (recounts : memory.Recounts retryLimit chronicle) (write : Write) :
    memory.Answers retryLimit chronicle (.write write) := by
  have told : chronicle.refusal? (.write write) = _ := Chronicle.refusal?.eq_3 ..
  rcases recounts.known write.fullName with
    ⟨absent, unknown⟩ | ⟨entry, table, found, known, named, tells⟩
  · rw [unknown] at told
    exact .refuses _ told (serve_write_of_absent absent)
  rw [known] at told
  have registered : Chronicle.table? (chronicle ++ [.write write]) write.fullName = some table :=
    Chronicle.table?_append_of_some known
  have config : Chronicle.config? (chronicle ++ [.write write]) table.fullName =
      some entry.config := (Chronicle.config?_append ..).trans tells.config
  cases row : write.isOnRow with
  | true =>
    obtain ⟨status, silent⟩ := Request.of_isOnRow row
    rw [← named] at status silent
    simp only [row, Bool.true_or, if_true] at told
    refine .grants _ told (serve_write_of_isOnRow found row) (recounts.put table registered
      ⟨tells.partitioned, config, ?_, fun key => ?_⟩)
    · rw [Chronicle.onRow_append, status, recounts.limit, tells.row, Row.record_ofStatuses]
    · rw [Chronicle.partitionRow?_append retryLimit (silent key)]
      exact tells.partitions key
  | false =>
    cases write with
    | failure => cases row
    | status database name partitions status =>
      have served : serve memory (.write (.status database name partitions status)) = _ :=
        serve_write_of_partitions found row
      rw [tells.partitioned] at served
      simp only [row, Bool.false_or] at told
      cases partitioned : table.isPartitioned with
      | false =>
        rw [partitioned] at served told
        exact .refuses _ told served
      | true =>
        rw [partitioned] at served told
        refine .grants _ told served (recounts.put table registered
          ⟨tells.partitioned, config, ?_, fun key => ?_⟩)
        · have silent : Request.onRow table.fullName (.write (.status database name partitions
              status)) = [] := by
            cases partitions with
            | nil => cases row
            | cons => rfl
          rw [Chronicle.onRow_append, silent, List.append_nil]
          exact tells.row
        · have wrote : Request.onPartition table.fullName key (.write (.status database name
              partitions status)) =
              .replicate (partitions.countP fun partition => partition.key == key) status :=
            if_pos named.symm
          unfold Chronicle.partitionRow?
          rw [Chronicle.onPartition_append, wrote, recounts.limit]
          exact TableRow.get?_recordPartitions status partitions (tells.partitions key)

/-! ### Whatever is asked of a memory -/

/-- **What comes of a request is told by the chronicle.** -/
theorem Recounts.answers (recounts : memory.Recounts retryLimit chronicle) (request : Request) :
    memory.Answers retryLimit chronicle request := by
  cases request with
  | addTable table config => exact recounts.addTable table config
  | setConfig database name config => exact recounts.setConfig database name config
  | write write => exact recounts.perform write

/-- **A memory stays what its chronicle tells**, whatever is asked of it. -/
theorem Recounts.servedAll (recounts : memory.Recounts retryLimit chronicle)
    (requests : List Request) :
    (memory.servedAll requests).Recounts retryLimit (chronicle ++ memory.granted requests) := by
  induction requests generalizing memory chronicle with
  | nil =>
    rw [granted, List.append_nil]
    exact recounts
  | cons request rest hyp =>
    unfold Memory.servedAll
    rw [List.foldl_cons]
    cases recounts.answers request with
    | refuses error _ answer =>
      simp only [granted, answer, served_of_error answer]
      exact hyp recounts
    | grants changed _ answer later =>
      simp only [granted, answer, served_of_ok answer]
      rw [List.append_cons]
      exact hyp later

/-- An empty memory has nothing to tell. -/
theorem recounts_empty (retryLimit : Int) : (empty retryLimit).Recounts retryLimit [] where
  limit := rfl
  rows _ := .none
  silent _ _ := ⟨rfl, fun _ => rfl⟩

/-- Whether what a memory answers is what a chronicle tells. -/
structure Reads (retryLimit : Int) (chronicle : Chronicle) (memory : Memory) : Prop where
  tableStatus : ∀ database name, memory.tableStatus database name = do
    let table ← chronicle.find database name
    return (Row.ofStatuses retryLimit (chronicle.onRow table.fullName)).status
  attempts : ∀ database name, memory.attempts database name = do
    let table ← chronicle.find database name
    return (Row.ofStatuses retryLimit (chronicle.onRow table.fullName)).attempts
  partitionStatus : ∀ database name partition, memory.partitionStatus database name partition = do
    let table ← chronicle.find database name
    match chronicle.partitionRow? retryLimit table partition.key with
    | some row => return row.status
    | none => throw (.partitionUnknown partition.key)
  partitionsToMigrate : ∀ table, memory.partitionsToMigrate table = do
    let _ ← chronicle.find table.database table.name
    return table.partitions.filter fun partition =>
      (chronicle.onPartition table.fullName partition.key).getLast? != some .succeeded

/-- What is read of a table depends on what the chronicle tells of it. -/
theorem Recounts.bind_find (recounts : memory.Recounts retryLimit chronicle) {α : Type}
    {read : TableRow → Except StoreError α} {told : Table → Except StoreError α}
    (database name : String)
    (same : ∀ entry table, table.fullName = Table.joinNames database name →
      entry.Recounts retryLimit chronicle table → read entry = told table) :
    (memory.find database name).bind read = (chronicle.find database name).bind told := by
  unfold find Chronicle.find
  rcases recounts.known (Table.joinNames database name) with
    ⟨absent, unknown⟩ | ⟨entry, table, found, known, named, tells⟩
  · rw [absent, unknown]
    rfl
  · rw [found, known]
    exact same entry table named tells

/-- **Everything that is read is told by the chronicle.** -/
theorem Recounts.reads (recounts : memory.Recounts retryLimit chronicle) :
    memory.Reads retryLimit chronicle where
  tableStatus database name := recounts.bind_find database name fun entry table _ tells =>
    congrArg (fun row : Row => Except.ok row.status) tells.row
  attempts database name := recounts.bind_find database name fun entry table _ tells =>
    congrArg (fun row : Row => Except.ok row.attempts) tells.row
  partitionStatus database name partition := by
    refine recounts.bind_find database name fun entry table _ tells => ?_
    let answer : Option Row → Except StoreError Status
      | some row => .ok row.status
      | none => .error (.partitionUnknown partition.key)
    exact congrArg answer (tells.partitions partition.key)
  partitionsToMigrate table := by
    refine recounts.bind_find _ _ fun entry registered named tells => ?_
    refine congrArg Except.ok (List.filter_congr fun partition _ => ?_)
    have named : registered.fullName = table.fullName := named
    rw [tells.partitions, ← named]
    exact Row.waits_ofStatuses? ..

/-- **A memory is what its chronicle tells**, whatever was asked of it. The requests that it refused
contribute nothing; its rows, what is read from it and which requests it refuses follow from those
that it granted. -/
theorem recounts_granted (retryLimit : Int) (requests : List Request) :
    let memory := (empty retryLimit).servedAll requests
    let chronicle : Chronicle := (empty retryLimit).granted requests
    (empty retryLimit).servedAll chronicle = memory ∧ memory.Recounts retryLimit chronicle ∧
      memory.Reads retryLimit chronicle ∧
      ∀ request, chronicle.refusal? request = match memory.serve request with
        | .error error => some error
        | .ok _ => none := by
  intro memory chronicle
  have recounts : memory.Recounts retryLimit chronicle :=
    (recounts_empty retryLimit).servedAll requests
  refine ⟨servedAll_granted _ requests, recounts, recounts.reads, fun request => ?_⟩
  cases recounts.answers request with
  | refuses error told answer => rw [told, answer]
  | grants changed told answer _ => rw [told, answer]

end Memory

end TableMigration
