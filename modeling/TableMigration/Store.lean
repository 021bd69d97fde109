/-
**Stores as their callers see them.**

* A `Backend` answers the two sorts of calls, reading a configuration and a `Write`, by changing a
  state that it alone knows. Nothing is assumed about how it answers, so a store may fail any of its
  calls.
* `Backend.perform` makes a write and notes it as an event.
-/

import TableMigration.Event
import TableMigration.Outcome

namespace TableMigration

/-- What a store answers to a write: the outcome, and what it tells its operators. -/
structure WriteReply where
  outcome : Outcome Unit
  notices : List Notice

/-- Some stores, as functions on a state. -/
structure Backend (σ : Type) where
  /-- Read what is set for a table. -/
  config : StoreRef → (database table : String) → σ → Outcome TableConfig × σ
  /-- Change a row. -/
  write : StoreRef → Write → σ → WriteReply × σ

/-- Make a write and note it, with what the store tells. -/
def Backend.perform {σ : Type} (backend : Backend σ) (store : StoreRef) (write : Write)
    (state : σ) : Outcome Unit × List Event × σ :=
  let (reply, state) := backend.write store write state
  (reply.outcome, .wrote store write :: reply.notices.map .notice, state)

end TableMigration
