/-
**A store that can be made to fail.**

* A `FaultyStore` is a memory with a switch for each sort of call. While a switch holds a text, the
  calls of its sort fail with that text and do not reach the memory (`FaultyStore.backend`).
-/

import TableMigration.Store.Memory

namespace TableMigration

/-- The sorts of calls on a store. -/
inductive CallSort where
  | config
  | status
  | failure
  deriving DecidableEq

/-- A memory, and what makes calls fail. -/
structure FaultyStore where
  memory : Memory
  fault : CallSort → Option String

namespace FaultyStore

/-- A store without faults. -/
def create (retryLimit : Int) : FaultyStore :=
  ⟨.empty retryLimit, fun _ => none⟩

/-- Set or take away the fault of a sort of calls. -/
def setFault (store : FaultyStore) (sort : CallSort) (fault : Option String) : FaultyStore :=
  { store with fault := fun other => if other = sort then fault else store.fault other }

/-- The sort of a write. -/
def sortOf : Write → CallSort
  | .status .. => .status
  | .failure .. => .failure

/-- Make a write on the memory itself, past all faults. -/
def write (store : FaultyStore) (write : Write) : WriteReply × FaultyStore :=
  match store.memory.perform write with
  | .ok (memory, notices) => (⟨.ok (), notices⟩, { store with memory := memory })
  | .error error => (⟨.error error.message, []⟩, store)

/-- Read what is set for a table from the memory itself, past all faults. -/
def config (store : FaultyStore) (database table : String) : Outcome TableConfig :=
  (store.memory.config database table).mapError StoreError.message

/-- The store as its callers see it. All references lead to it. -/
def backend : Backend FaultyStore where
  config _ database table store :=
    match store.fault .config with
    | some text => (.error text, store)
    | none => (store.config database table, store)
  write _ write store :=
    match store.fault (sortOf write) with
    | some text => (⟨.error text, []⟩, store)
    | none => store.write write

end FaultyStore

end TableMigration
