/-
**Every table is judged by its own tasks.**

* `Write.onTable` — the writes on the row of one table. They are among those that address its full
  name.
* `Task.Settles.onTable_iff` — when what settles the tasks under a full name is the success of a
  given table.
* `Run.judges_apart` — so what a run records for a table is a matter of its own tasks, however those
  of other tables end, exactly as long as the names are not confused. `Run.confused_blamed` is a run
  in which they are.
-/

import TableMigration.Proofs.Isolation
import TableMigration.Proofs.TableCalls

namespace TableMigration

/-! ### Writes on the row of one table -/

/-- Those of some writes that address the row of a table. -/
def Write.onTable (writes : List (StoreRef × Write)) (table : TableName) :
    List (StoreRef × Write) :=
  writes.filter fun written => written.2.isOnRow && written.2.title == table

/-- They are among those that address its full name. -/
theorem Write.onTable_eq (writes : List (StoreRef × Write)) (table : TableName) :
    onTable writes table =
      (onRow writes table.fullName).filter fun written => written.2.title == table := by
  unfold onTable onRow
  rw [List.filter_filter]
  refine List.filter_congr fun written _ => ?_
  by_cases mine : written.2.title = table
  · have named : written.2.fullName = table.fullName := by rw [← mine, Write.fullName_title]
    simp [mine, named]
  · simp [beq_false_of_ne mine]

namespace Task

variable {entries : List Task} {final : Task} {store : StoreRef} {calls : List (StoreRef × Write)}
  {table : TableName}

/-- **A table has succeeded iff all tasks that are settled with it have, and it is the one that is
named.** -/
theorem Settles.onTable_iff (settles : Settles entries final store calls) :
    (calls.filter fun written => written.2.title == table) =
        [(store, .status table.database table.name [] .succeeded)] ↔
      (∀ task ∈ entries, task.progress = .succeeded) ∧ final.table.title = table := by
  rcases settles.cases with ⟨all, rfl⟩ | ⟨⟨task, mine, failed⟩, rfl⟩ | ⟨⟨task, mine, going⟩, _, rfl⟩
  · by_cases same : final.table.title = table
    · subst same
      simpa [Write.title, Table.title] using all
    · have other : (Write.status final.table.database final.table.name [] .succeeded).title ≠
        table := same
      simp [other, same]
  · refine iff_of_false (fun called => ?_) fun ⟨all, _⟩ => ?_
    · have member : (store, Write.status table.database table.name [] .succeeded) ∈
          [(store, Write.failure final.table.database final.table.name)] :=
        List.mem_of_mem_filter (called ▸ List.mem_singleton_self _)
      cases List.mem_singleton.mp member
    · rw [all task mine] at failed
      cases failed
  · refine iff_of_false (fun called => ?_) fun ⟨all, _⟩ => ?_
    · cases called
    · rw [all task mine] at going
      cases going

/-- The tasks under the full name of a table are its own and those of tables that are confused with
it. -/
theorem mem_ofTable_fullName {task : Task} : task ∈ ofTable entries table.fullName ↔
    task ∈ entries ∧ (task.table.title = table ∨ task.table.title.Confused table) := by
  unfold ofTable
  rw [List.mem_filter, beq_iff_eq, ← TableName.fullName_eq_iff]
  exact Iff.rfl

end Task

namespace Run

variable {σ : Type} {engines : Engines σ} {run last : Run σ} {tasks : List Task} {listed : List Nat}
  {acts : List Act} {store : StoreRef} {written : List (StoreRef × Write)} {table : TableName}

/-- What is written on the row of a table depends on the tasks under its full name. -/
theorem Charged.onTable_iff (charged : run.Charged tasks listed acts store written)
    (past : run.isOver = true) {final : Task} (ends : (Task.ofTable (Task.entries run.tasks listed)
      table.fullName).getLast? = some final) :
    Write.onTable written table = [(store, .status table.database table.name [] .succeeded)] ↔
      (∀ task ∈ Task.entries run.tasks listed,
        task.table.title = table ∨ task.table.title.Confused table → task.progress = .succeeded) ∧
      final.table.title = table := by
  rw [Write.onTable_eq, (charged.settles past ends).onTable_iff]
  refine and_congr_left fun _ => forall_congr' fun task => ?_
  rw [Task.mem_ofTable_fullName, and_imp]

/-- **What a run records for a table is a matter of its own tasks**, whatever the engines answer,
whatever the pools refuse and whatever the order of the moves. That all its tasks have succeeded is
written on its row, once and with nothing else, iff the tasks of all tables with the same full name
have succeeded and the last of them is one of its own. As long as no listed table has a name that is
confused with its own, this is so iff its own tasks have. -/
theorem judges_apart {scheduler : Scheduler} {tasks : List Task} {listed : List Nat} {state : σ}
    {moves : List Move} {store : StoreRef} (resting : scheduler.AtRest)
    (known : scheduler.store = some store)
    (launched : scheduler.launch tasks listed state = .started run)
    (reached : run.steps engines moves = some last) (past : last.isOver = true) :
    ∃ new, last.events = run.events ++ new ∧
      ∀ table : TableName, (∃ task ∈ Task.entries last.tasks listed, task.table.title = table) →
        (Write.onTable (Event.writes new) table =
            [(store, .status table.database table.name [] .succeeded)] ↔
          (∀ task ∈ Task.entries last.tasks listed,
            task.table.title = table ∨ task.table.title.Confused table →
              task.progress = .succeeded) ∧
          ((Task.ofTable (Task.entries last.tasks listed) table.fullName).getLast?.map
            fun final => final.table.title) = some table) ∧
        ((∀ task ∈ Task.entries last.tasks listed, ¬ task.table.title.Confused table) →
          (Write.onTable (Event.writes new) table =
              [(store, .status table.database table.name [] .succeeded)] ↔
            ∀ task ∈ Task.entries last.tasks listed, task.table.title = table →
              task.progress = .succeeded)) := by
  have charged : last.Charged tasks listed ([] ++ run.trace engines moves) store
      ([] ++ run.allWrites engines moves) :=
    (charged_begins (resting.begins launched) known).steps reached
  obtain ⟨new, events, shown⟩ := (steps_wrote reached).shown
  rw [List.nil_append, List.nil_append, ← shown] at charged
  refine ⟨new, events, fun table ⟨task, member, named⟩ => ?_⟩
  have mine := Task.mem_ofTable_fullName.mpr ⟨member, .inl named⟩
  have ends := List.getLast?_eq_some_getLast (List.ne_nil_of_mem mine)
  generalize List.getLast _ _ = final at ends
  have written := charged.onTable_iff past ends
  rw [ends, Option.map_some, Option.some_inj]
  refine ⟨written, fun apart => written.trans ⟨fun ⟨all, _⟩ task member named => ?_, fun all => ?_⟩⟩
  · exact all task member (.inl named)
  · obtain ⟨member, named⟩ := Task.mem_ofTable_fullName.mp (List.mem_of_getLast? ends)
    exact ⟨fun task member named => all task member (named.resolve_right (apart task member)),
      named.resolve_right (apart final member)⟩

/-- A task that loads a table. -/
def loadTask (database name : String) : Task :=
  (Task.create name ⟨database, name, [], []⟩ ⟨none⟩ none .succeeded).addActions [.load]

/-- Engines that fail with one task. -/
def failingEngines (fails : Nat) : Engines Unit where
  backend := (Campaign.easyEngines 0).backend
  call _ number _ _ _ := (.returned (if number = fails then .fail "" else .succeed), ())

/-- The first of two tables is loaded, and the second one fails. -/
def secondFails : List Move :=
  List.replicate 7 .advance ++ jobMoves .destination ++ List.replicate 7 .advance ++
    jobMoves .destination ++ .work .destination 0 :: List.replicate 10 .advance

/-- A table is recorded although another one has failed. -/
theorem judges_apart_mixed : ∃ run last new,
    storedScheduler.launch [loadTask "d" "t", loadTask "d" "u"] [0, 1] () = .started run ∧
    run.steps (failingEngines 1) secondFails = some last ∧ last.isOver = true ∧
    last.tasks.map Task.progress = [.succeeded, .failed] ∧ last.events = run.events ++ new ∧
    Write.onTable (Event.writes new) ⟨"d", "t"⟩ = [(0, .status "d" "t" [] .succeeded)] := by
  have goes : (storedScheduler.launch [loadTask "d" "t", loadTask "d" "u"] [0, 1] ()).leads
      (failingEngines 1) secondFails (fun _ last => last.isOver ∧
        last.tasks.map Task.progress = [.succeeded, .failed] ∧
        last.tasks.map (fun task => task.table.title) = [⟨"d", "t"⟩, ⟨"d", "u"⟩]) = true := by
    decide +kernel
  obtain ⟨run, last, launched, reached, ends⟩ := Launch.of_leads goes
  obtain ⟨past, progress, titles⟩ := of_decide_eq_true ends
  obtain ⟨new, events, judged⟩ :=
    judges_apart (Scheduler.atRest_create (some 0) true true true _) rfl launched reached past
  obtain ⟨first, others, tasks, here, rest⟩ := List.map_eq_cons_iff.mp titles
  obtain ⟨second, rest', rfl, there, nothing⟩ := List.map_eq_cons_iff.mp rest
  cases List.map_eq_nil_iff.mp nothing
  have entries : Task.entries last.tasks [0, 1] = [first, second] := by rw [tasks]; rfl
  rw [entries] at judged
  refine ⟨run, last, new, launched, reached, past, progress, events, ?_⟩
  refine (judged ⟨"d", "t"⟩ ⟨first, List.mem_cons_self, here⟩).2 ?_ |>.mpr ?_
  · rw [List.forall_mem_cons, List.forall_mem_singleton, here, there]
    have apart : TableName.fullName ⟨"d", "u"⟩ ≠ TableName.fullName ⟨"d", "t"⟩ := by decide
    exact ⟨fun confused => confused.ne rfl, (TableName.fullName_ne_iff.mp apart).2⟩
  · rw [tasks] at progress
    rw [List.forall_mem_cons, List.forall_mem_singleton, here, there]
    exact ⟨fun _ => (List.cons.inj progress).1, fun same => absurd same (by decide)⟩

/-- The first of two tasks fails, and the second table is loaded. -/
def firstFails : List Move :=
  List.replicate 7 .advance ++ jobMoves .destination ++ .work .destination 0 ::
    List.replicate 6 .advance ++ jobMoves .destination ++ List.replicate 10 .advance

/-- **A table whose name is confused with that of another one gets the blame for it.** All tasks of
the second table have succeeded, and a failed attempt of it is recorded. -/
theorem confused_blamed : storedScheduler.AtRest ∧ ∃ run last new,
    storedScheduler.launch [loadTask "a" "b.c", loadTask "a.b" "c"] [0, 1] () = .started run ∧
    run.steps (failingEngines 0) firstFails = some last ∧ last.isOver = true ∧
    last.tasks.map (fun task => (task.table.title, task.progress)) =
      [(⟨"a", "b.c"⟩, .failed), (⟨"a.b", "c"⟩, .succeeded)] ∧
    last.events = run.events ++ new ∧
    Write.onTable (Event.writes new) ⟨"a.b", "c"⟩ = [(0, .failure "a.b" "c")] := by
  have goes : (storedScheduler.launch [loadTask "a" "b.c", loadTask "a.b" "c"] [0, 1] ()).leads
      (failingEngines 0) firstFails (fun run last => last.isOver ∧
        last.tasks.map (fun task => (task.table.title, task.progress)) =
          [(⟨"a", "b.c"⟩, .failed), (⟨"a.b", "c"⟩, .succeeded)] ∧
        last.events.take run.events.length = run.events ∧
        Write.onTable (Event.writes (last.events.drop run.events.length)) ⟨"a.b", "c"⟩ =
          [(0, .failure "a.b" "c")]) = true := by decide +kernel
  refine ⟨Scheduler.atRest_create (some 0) true true true _, ?_⟩
  obtain ⟨run, last, launched, reached, ends⟩ := Launch.of_leads goes
  obtain ⟨past, tasks, kept, written⟩ := of_decide_eq_true ends
  refine ⟨run, last, last.events.drop run.events.length, launched, reached, past, tasks, ?_,
    written⟩
  conv_lhs => rw [← List.take_append_drop run.events.length last.events, kept]

end Run

end TableMigration
