/-
**Which tables a memory keeps apart.**

* `TableName` — a database name and a table name. Different ones have the same full name iff the
  database of one goes on behind a point where the table of the other begins
  (`TableName.fullName_eq_iff`).
* `Memory.get?_serve_of_ne` — a request changes nothing under other full names than its own.
* `Memory.apart_iff` — so requests about a table leave all answers about another one as they are
  (`Memory.Isolates`), and a table can be added whatever else was, exactly as long as the names are
  not confused (`TableName.Confused`). `Memory.points_confuse` is the smallest case in which they
  are.
-/

import TableMigration.Proofs.Chronicle

namespace TableMigration

/-! ### Names of tables -/

/-- By what a table is addressed. -/
structure TableName where
  database : String
  name : String
  deriving DecidableEq

namespace TableName

/-- Database and table name with a point between them. -/
def fullName (table : TableName) : String :=
  Table.joinNames table.database table.name

/-- Whether the database of a table is that of another one and goes on, behind a point, with a text
that stands in front of its own table name in that of the other. -/
def Extends (first second : TableName) : Prop :=
  ∃ middle, first.database = Table.joinNames second.database middle ∧
    second.name = Table.joinNames middle first.name

/-- Whether two tables have names that read the same once they are joined. -/
def Confused (first second : TableName) : Prop :=
  first.Extends second ∨ second.Extends first

variable {first second : TableName}

theorem joinNames_assoc (database middle name : String) :
    Table.joinNames (Table.joinNames database middle) name =
      Table.joinNames database (Table.joinNames middle name) := by
  simp only [Table.joinNames, String.append_assoc]

theorem Extends.fullName_eq (extends_ : first.Extends second) :
    first.fullName = second.fullName := by
  obtain ⟨middle, database, name⟩ := extends_
  unfold fullName
  rw [database, name, joinNames_assoc]

theorem Extends.length_lt (extends_ : first.Extends second) :
    second.database.length < first.database.length := by
  obtain ⟨middle, database, _⟩ := extends_
  rw [database]
  simp only [Table.joinNames, String.length_append, show ".".length = 1 from rfl]
  omega

/-- A table is never confused with itself. -/
theorem Confused.ne (confused : first.Confused second) : first ≠ second := by
  rintro rfl
  rcases confused with longer | longer <;> exact Nat.lt_irrefl _ longer.length_lt

/-- Where a joined name has its point is all that can differ. -/
theorem toList_joinNames (database name : String) :
    (Table.joinNames database name).toList = database.toList ++ '.' :: name.toList := by
  simp [Table.joinNames]

theorem eq_of_toList (database : first.database.toList = second.database.toList)
    (name : first.name.toList = second.name.toList) : first = second := by
  cases first
  cases second
  exact congrArg₂ TableName.mk (String.toList_inj.mp database) (String.toList_inj.mp name)

theorem extends_of_split {char : Char} {rest : List Char}
    (database : first.database.toList = second.database.toList ++ char :: rest)
    (names : '.' :: second.name.toList = char :: rest ++ '.' :: first.name.toList) :
    first.Extends second := by
  rw [List.cons_append] at names
  obtain ⟨rfl, name⟩ := List.cons.inj names
  refine ⟨String.ofList rest, String.toList_inj.mp ?_, String.toList_inj.mp ?_⟩
  · rw [toList_joinNames, String.toList_ofList, database]
  · rw [toList_joinNames, String.toList_ofList, name]

/-- **Joined names are the same iff the names are, or are confused.** -/
theorem fullName_eq_iff :
    first.fullName = second.fullName ↔ first = second ∨ first.Confused second := by
  constructor
  · intro same
    have split : first.database.toList ++ '.' :: first.name.toList =
        second.database.toList ++ '.' :: second.name.toList := by
      rw [← toList_joinNames, ← toList_joinNames]
      exact congrArg String.toList same
    rcases List.append_eq_append_iff.mp split with ⟨rest, longer, name⟩ | ⟨rest, longer, name⟩
    · cases rest with
      | nil => exact .inl (eq_of_toList (by simpa using longer.symm) (by simpa using name))
      | cons char rest => exact .inr (.inr (extends_of_split longer name))
    · cases rest with
      | nil => exact .inl (eq_of_toList (by simpa using longer) (by simpa using name.symm))
      | cons char rest => exact .inr (.inl (extends_of_split longer name))
  · rintro (rfl | extends_ | extends_)
    · rfl
    · exact extends_.fullName_eq
    · exact extends_.fullName_eq.symm

theorem fullName_ne_iff :
    first.fullName ≠ second.fullName ↔ first ≠ second ∧ ¬ first.Confused second := by
  rw [Ne, fullName_eq_iff, not_or]

end TableName

/-- By what a table is addressed. -/
def Table.title (table : Table) : TableName :=
  ⟨table.database, table.name⟩

/-- The table that a write addresses. -/
def Write.title : Write → TableName
  | .status database name _ _ | .failure database name => ⟨database, name⟩

theorem Write.fullName_title (write : Write) : write.title.fullName = write.fullName := by
  cases write <;> rfl

/-! ### What is said about a table -/

namespace Memory

/-- The table that a request is about. -/
def Request.title : Request → TableName
  | .addTable table _ => table.title
  | .setConfig database name _ => ⟨database, name⟩
  | .write change => change.title

theorem Request.fullName_title (request : Request) : request.title.fullName = request.fullName := by
  cases request with
  | write change => exact change.fullName_title
  | _ => rfl

/-- Whether two memories give the same answers about a table. -/
structure SameAbout (table : TableName) (first second : Memory) : Prop where
  registered : first.tables.contains table.fullName = second.tables.contains table.fullName
  config : first.config table.database table.name = second.config table.database table.name
  tableStatus : first.tableStatus table.database table.name =
    second.tableStatus table.database table.name
  attempts : first.attempts table.database table.name = second.attempts table.database table.name
  partitionStatus : ∀ partition, first.partitionStatus table.database table.name partition =
    second.partitionStatus table.database table.name partition
  partitionsToMigrate : ∀ columns partitions,
    first.partitionsToMigrate ⟨table.database, table.name, columns, partitions⟩ =
      second.partitionsToMigrate ⟨table.database, table.name, columns, partitions⟩

variable {memory changed first second : Memory} {request : Request} {table : TableName}
  {name : String}

/-- All answers about a table are read from its rows. -/
theorem sameAbout_of_get? (same : first.tables.get? table.fullName =
    second.tables.get? table.fullName) : SameAbout table first second := by
  have find : first.find table.database table.name = second.find table.database table.name := by
    unfold Memory.find
    rw [show first.tables.get? (Table.joinNames table.database table.name) = _ from same]
    rfl
  refine ⟨congrArg Option.isSome same, ?_, ?_, ?_, fun partition => ?_,
    fun columns partitions => ?_⟩
  · rw [Memory.config, Memory.config, find]
  · rw [Memory.tableStatus, Memory.tableStatus, find]
  · rw [Memory.attempts, Memory.attempts, find]
  · rw [Memory.partitionStatus, Memory.partitionStatus, find]
  · rw [Memory.partitionsToMigrate, Memory.partitionsToMigrate, find]

/-! ### What a request leaves alone -/

/-- A memory changes under a name by what is put there, and under no other one. -/
theorem get?_put_of_ne {database table : String} (entry : TableRow)
    (apart : Table.joinNames database table ≠ name) :
    (memory.put database table entry).tables.get? name = memory.tables.get? name :=
  Keyed.get?_put_of_ne _ _ apart

theorem served_write (memory : Memory) (write : Write) :
    memory.served (.write write) = memory.after write := by
  have served : memory.served (.write write) =
    ((memory.perform write).map Prod.fst).toOption.getD memory := rfl
  unfold after
  rw [served]
  cases memory.perform write <;> rfl

/-- **A request changes nothing under other names than its own.** -/
theorem get?_served_of_ne (memory : Memory) (apart : request.fullName ≠ name) :
    (memory.served request).tables.get? name = memory.tables.get? name := by
  cases answer : memory.serve request with
  | error error => rw [served_of_error answer]
  | ok changed =>
    cases request with
    | addTable table config =>
      rw [served_of_ok answer]
      have answer : memory.addTable table config = .ok changed := answer
      rw [addTable_eq] at answer
      split at answer
      · cases answer
      · split at answer
        · cases answer
        · cases answer
          exact get?_put_of_ne _ apart
    | setConfig database table config =>
      rw [served_of_ok answer]
      have answer : memory.setConfig database table config = .ok changed := answer
      unfold Memory.setConfig at answer
      cases found : memory.find database table with
      | error error =>
        rw [found] at answer
        cases answer
      | ok entry =>
        rw [found] at answer
        cases answer
        exact get?_put_of_ne _ apart
    | write change =>
      rw [served_write]
      cases found : memory.tables.get? name with
      | none => exact get?_after_of_absent found change
      | some entry =>
        rw [get?_after found]
        exact congrArg some (if_neg apart)

/-- Whether requests about a table leave all answers about another one as they are, whatever a
memory was asked before. -/
def Isolates (mine other : TableName) : Prop :=
  ∀ retryLimit requests (request : Request), request.title = mine →
    let memory := (empty retryLimit).servedAll requests
    SameAbout other (memory.served request) memory

/-- Tables are isolated iff their joined names differ. -/
theorem isolates_iff {mine other : TableName} :
    Isolates mine other ↔ mine.fullName ≠ other.fullName := by
  constructor
  · intro isolates same
    -- an empty memory knows neither table, and both once one of them is added
    let request : Request := .addTable ⟨mine.database, mine.name, [], []⟩ ⟨none⟩
    have registered : ((empty 0).served request).tables.contains other.fullName = false :=
      (isolates 0 [] request rfl).registered
    have added : ((empty 0).served request).tables =
        [(mine.fullName, .register ⟨mine.database, mine.name, [], []⟩ ⟨none⟩)] := rfl
    rw [added, Keyed.contains, Keyed.get?, if_pos same] at registered
    cases registered
  · intro apart retryLimit requests request mine
    refine sameAbout_of_get? (get?_served_of_ne _ ?_)
    rw [← Request.fullName_title, mine]
    exact apart

/-! ### What can be added -/

/-- The tables that were added by some requests. -/
def added (requests : List Request) : List TableName :=
  requests.filterMap fun
    | .addTable table _ => some table.title
    | .setConfig .. | .write _ => none

/-- A table is registered iff one with its full name was added. -/
theorem table?_eq_none_iff {chronicle : Chronicle} :
    chronicle.table? name = none ↔ ∀ other ∈ added chronicle, other.fullName ≠ name := by
  unfold Chronicle.table? added
  rw [List.findSome?_eq_none_iff, List.forall_mem_filterMap]
  refine forall₂_congr fun request _ => ?_
  cases request with
  | addTable table config =>
    have told : Request.table? name (.addTable table config) =
      if table.fullName = name then some table else none := rfl
    have full : table.title.fullName = table.fullName := rfl
    rw [told]
    simp [full]
  | setConfig | write => simp [Request.table?]

theorem Recounts.serves_iff {retryLimit : Int} {chronicle : Chronicle}
    (recounts : memory.Recounts retryLimit chronicle) (request : Request) :
    (∃ changed, memory.serve request = .ok changed) ↔ chronicle.refusal? request = none := by
  cases recounts.answers request with
  | refuses error told answer => simp [told, answer]
  | grants changed told answer => simp [told, answer]

/-- **A table can be added iff its configuration is valid and no table with its full name was.** -/
theorem addTable_ok_iff (retryLimit : Int) (requests : List Request) (table : Table)
    (config : TableConfig) :
    (∃ changed, ((empty retryLimit).servedAll requests).addTable table config = .ok changed) ↔
      (∀ size, config.groupSize = some size → 0 < size) ∧
      ∀ other ∈ added ((empty retryLimit).granted requests),
        other.fullName ≠ table.title.fullName := by
  have recounts := (recounts_empty retryLimit).servedAll requests
  have serves := recounts.serves_iff (.addTable table config)
  refine serves.trans ?_
  have told : Chronicle.refusal? ((empty retryLimit).granted requests)
      (.addTable table config) = _ :=
    Chronicle.refusal?.eq_1 ..
  rw [List.nil_append, told, show table.title.fullName = table.fullName from rfl,
    ← table?_eq_none_iff]
  cases config.groupSize with
  | none => simp
  | some size =>
    by_cases valid : size ≤ 0
    · simp [Option.filter_some, valid, Int.not_lt.mpr valid]
    · simp [Option.filter_some, valid, Int.not_le.mp valid]

/-- **A memory keeps tables apart whose names are not confused.** Requests about a table leave all
answers about another one as they are, whatever was asked before, and a table can be added unless it
was, both exactly as long as the names of the tables are not confused. -/
theorem apart_iff (mine other : TableName) (retryLimit : Int) (requests : List Request)
    (table : Table) (config : TableConfig) :
    (Isolates mine other ↔ mine ≠ other ∧ ¬ mine.Confused other) ∧
    ((∃ changed, ((empty retryLimit).servedAll requests).addTable table config = .ok changed) ↔
      (∀ size, config.groupSize = some size → 0 < size) ∧
      ∀ earlier ∈ added ((empty retryLimit).granted requests),
        earlier ≠ table.title ∧ ¬ earlier.Confused table.title) := by
  refine ⟨isolates_iff.trans TableName.fullName_ne_iff, (addTable_ok_iff ..).trans ?_⟩
  exact and_congr_right fun _ => forall₂_congr fun earlier _ => TableName.fullName_ne_iff

/-- A point in a database name confuses it with a point in a table name: a failure that is recorded
for the one table counts for the other, which cannot be added at all. -/
theorem points_confuse :
    let mine : Table := ⟨"a.b", "c", [], []⟩
    let other : Table := ⟨"a", "b.c", [], []⟩
    let memory := (empty 1).served (.addTable mine ⟨none⟩)
    mine.title ≠ other.title ∧
    memory.attempts "a.b" "c" = .ok 0 ∧
    (memory.served (.write (.failure "a" "b.c"))).attempts "a.b" "c" = .ok 1 ∧
    ¬ Isolates other.title mine.title ∧
    added ((empty 1).granted [.addTable mine ⟨none⟩]) = [mine.title] ∧
    memory.addTable other ⟨none⟩ = .error (.tableExists "a.b.c") := by
  intro mine other memory
  have facts : mine.title ≠ other.title ∧ memory.attempts "a.b" "c" = .ok 0 ∧
      (memory.served (.write (.failure "a" "b.c"))).attempts "a.b" "c" = .ok 1 ∧
      added ((empty 1).granted [.addTable mine ⟨none⟩]) = [mine.title] ∧
      memory.addTable other ⟨none⟩ = .error (.tableExists "a.b.c") := by decide +kernel
  obtain ⟨apart, before, after, added, refused⟩ := facts
  refine ⟨apart, before, after, fun isolates => ?_, added, refused⟩
  have same := (isolates 1 [.addTable mine ⟨none⟩] (.write (.failure "a" "b.c")) rfl).attempts
  cases after.symm.trans (same.trans before)

end Memory

end TableMigration
