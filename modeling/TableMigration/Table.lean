/-
**Tables and their partitions.**

* A partition is named by its values in column order, and `Partition.key` writes them as one text:
  joined by commas, with a backslash before every comma and backslash that belongs to a value.
* A table with partition columns is partitioned, also when it has no partition yet
  (`Table.isPartitioned`).
-/

namespace TableMigration

/-! ### Partitions -/

/-- The values that identify one partition, in column order. -/
structure Partition where
  values : List String
  deriving DecidableEq, Inhabited

namespace Partition

/-- A value inside a key: commas and backslashes get a backslash in front. -/
def escape : List Char → List Char
  | [] => []
  | char :: rest =>
    if char = ',' ∨ char = '\\' then '\\' :: char :: escape rest else char :: escape rest

/-- Escaped values with a comma between neighbours. -/
def join : List (List Char) → List Char
  | [] => []
  | [value] => escape value
  | value :: next :: rest => escape value ++ ',' :: join (next :: rest)

/-- The text under which counts and status rows of a partition are kept. -/
def key (partition : Partition) : String :=
  String.ofList (join (partition.values.map String.toList))

end Partition

/-! ### Tables -/

/-- A table to migrate. -/
structure Table where
  database : String
  name : String
  columns : List String
  partitions : List Partition
  deriving DecidableEq, Inhabited

namespace Table

/-- Database and table name with a point between them. -/
def joinNames (database name : String) : String :=
  database ++ "." ++ name

/-- The full name of a table. -/
def fullName (table : Table) : String :=
  joinNames table.database table.name

/-- Whether the table has partition columns. -/
def isPartitioned (table : Table) : Bool :=
  !table.columns.isEmpty

end Table

/-- What can be set for a single table. -/
structure TableConfig where
  /-- How many partitions one task gets; without it, one task gets them all. -/
  groupSize : Option Int
  deriving DecidableEq, Inhabited

end TableMigration
