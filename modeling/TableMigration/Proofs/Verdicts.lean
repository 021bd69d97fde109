/-
**What a run reports.**

* `Run.Resigns` — the tables that are given up are those that are not finished.
* `Run.Faithful` collects what holds of a run of any tasks all along (`Run.Faithful.step`).
* `Run.verdicts` — so the report of a run that is over says of every listed table what has become of it
  (`Report.Tells`), and no action that was handed out is left running.
-/

import TableMigration.Proofs.Refinement
import TableMigration.Proofs.RightNotes
import TableMigration.Proofs.Weighing

namespace TableMigration

/-- A task of one list has its counterpart in another one with the same tables. -/
theorem Task.found_of_tables {first second : List Task} {number : Nat} {task : Task}
    (tables : (first[number]?).map table = (second[number]?).map table)
    (found : first[number]? = some task) :
    ∃ other, second[number]? = some other ∧ other.table = task.table := by
  rw [found] at tables
  exact Option.map_eq_some_iff.mp tables.symm

namespace Run

variable {σ : Type} {engines : Engines σ} {run next last : Run σ} {tasks : List Task}
  {listed : List Nat} {acts : List Act}

theorem shows_iff {number : Nat} {progress : Progress} :
    run.ledger.custody.Shows number progress ↔
      ∃ task, run.tasks[number]? = some task ∧ task.progress = progress := by
  show ((run.tasks[number]?).map Task.deaf).map Task.progress = some progress ↔ _
  rw [Option.map_map]
  exact Option.map_eq_some_iff

/-- Who listens to a task has nothing to do with its table. -/
theorem table_custody (run : Run σ) (number : Nat) :
    (run.ledger.custody.tasks number).map Task.table = (run.tasks[number]?).map Task.table :=
  Option.map_map ..

theorem hasFailed_eq (run : Run σ) (number : Nat) :
    run.hasFailed number = decide (run.ledger.custody.Shows number .failed) := by
  refine Bool.eq_iff_iff.mpr ?_
  rw [decide_eq_true_iff, shows_iff]
  unfold hasFailed
  simp only [Option.any_eq_true, beq_iff_eq]

/-- A task of a group that has come to its end has succeeded or failed. -/
theorem closed_of_ended (right : run.notes.Right tasks listed run.ledger.custody)
    (same : ∀ number : Nat, (run.tasks[number]?).map Task.table = (tasks[number]?).map Task.table)
    {key : String} {group : TableGroup} (found : run.tables.get? key = some group)
    {number : Nat} (member : number ∈ group.tasks) (ended : run.isEnded number = true) :
    run.ledger.custody.Closed number := by
  have among : group.tasks = Task.listedOf tasks listed key :=
    (right.lists.groups _ (Keyed.mem_of_get? found)).among
  obtain ⟨_, task, known, _⟩ := Task.mem_listedOf.mp (among ▸ member)
  obtain ⟨after, found', _⟩ : ∃ after, run.tasks[number]? = some after ∧ after.table = task.table :=
    Option.map_eq_some_iff.mp ((same number).trans (congrArg (Option.map Task.table) known))
  have final : after.progress.isTerminal = true := by
    unfold isEnded at ended
    rwa [found'] at ended
  cases progress : after.progress with
  | succeeded => exact .inl (shows_iff.mpr ⟨after, found', progress⟩)
  | failed => exact .inr (shows_iff.mpr ⟨after, found', progress⟩)
  | new | running =>
    rw [progress] at final
    cases final

/-- A table counts as failed iff one of its tasks has failed. -/
theorem tableFailed_iff (right : run.notes.Right tasks listed run.ledger.custody) {key : String}
    {group : TableGroup} (found : run.tables.get? key = some group) :
    run.tableFailed group = true ↔ ∃ number ∈ group.tasks, run.ledger.custody.Shows number .failed := by
  obtain ⟨fullName, among, _⟩ := right.lists.groups _ (Keyed.mem_of_get? found)
  unfold tableFailed
  rw [Bool.or_eq_true, List.any_eq_true, List.contains_iff_mem]
  simp only [hasFailed_eq, decide_eq_true_iff]
  refine ⟨fun failed => failed.elim id fun noted => ?_, .inl⟩
  obtain ⟨number, mine, failed⟩ := right.failing _ noted
  rw [show group.fullName = key from fullName] at mine
  exact ⟨number, among ▸ mine, failed⟩

/-! ### Tables that are given up -/

/-- What a run has given up, and is yet to give up. -/
inductive Resigns (run : Run σ) : Prop
  | passing (pass : Duty.Passing run.agenda) (clean : run.report.unfinished = [])
  | leaving (stuck : List String) (tail : List Duty) (suffix : tail <:+ Duty.closing)
      (agenda : run.agenda = stuck.map .giveUp ++ tail)
      (all : run.report.unfinished ++ stuck = run.tables.unfinished.map Prod.fst)

theorem Resigns.step {move : Move} (resigns : run.Resigns) (sorted : run.tables.Sorted)
    (moved : run.step engines move = some next) : next.Resigns := by
  have unfinished : (∀ key rest, move = .advance → run.agenda ≠ .giveUp key :: rest) →
      next.report.unfinished = run.report.unfinished := by
    intro kept
    cases step_deals moved with
    | nothing after | fail _ _ after | finish _ _ _ _ after =>
      exact congrArg (fun notes : Notes => notes.report.unfinished) after
    | giveUp advances head => exact absurd head (kept _ _ advances)
  have tables : (∀ key rest, move = .advance → run.agenda ≠ .judge key :: rest) →
      next.tables = run.tables := by
    intro unjudged
    cases step_deals moved with
    | nothing after | fail _ _ after | giveUp _ _ _ after => exact congrArg Notes.tables after
    | finish advances head => exact absurd head (unjudged _ _ advances)
  by_cases works : move ≠ .advance
  · have agenda := agenda_step moved works
    have unfinished := unfinished fun _ _ advances => absurd advances works
    cases resigns with
    | passing pass clean => exact .passing (agenda ▸ pass) (unfinished.trans clean)
    | leaving stuck tail suffix split all =>
      refine .leaving stuck tail suffix (agenda.trans split) ?_
      rw [tables fun _ _ advances => absurd advances works, unfinished, all]
  have advances := not_not.mp works
  subst advances
  have step : run.ledger.Step (fun _ _ _ _ => True) _ next.ledger := advance_ledger moved
  obtain ⟨duty, rest, agenda, performed⟩ := exists_of_advance moved
  obtain ⟨duties, after, _, nothing⟩ := agenda_perform performed
  have pops : duty.rank = 4 → next.agenda = rest := by
    intro four
    rw [after, nothing four]
    rfl
  have heads : ∀ {other rest'}, run.agenda = other :: rest' → other = duty :=
    fun head => (List.cons.inj (head.symm.trans agenda)).1
  cases resigns with
  | passing pass clean =>
    have unfinished := unfinished fun key rest _ head => by
      have low := pass.rank_le (head ▸ List.mem_cons_self)
      exact absurd low (Nat.not_succ_le_self 3)
    rcases step.passing pass with pass | ⟨leave, same⟩
    · exact .passing pass (unfinished.trans clean)
    · refine .leaving _ Duty.closing (List.suffix_refl _) leave ?_
      rw [unfinished, clean, show next.tables = run.tables from same]
      rfl
  | leaving stuck tail suffix split all =>
    rw [agenda] at split
    have late : duty.rank = 4 → next.tables = run.tables := fun four => tables fun key _ _ head => by
      rw [← heads head] at four
      cases four
    cases stuck with
    | nil =>
      have split : duty :: rest = tail := split
      subst split
      have closing : duty ∈ Duty.closing := suffix.subset List.mem_cons_self
      refine .leaving [] rest ((List.suffix_cons duty rest).trans suffix)
        (pops (Duty.rank_closing closing)) ?_
      rw [late (Duty.rank_closing closing), unfinished fun key _ _ head => ?_, all]
      exact absurd ((heads head).symm ▸ closing) Duty.giveUp_not_mem_closing
    | cons key stuck =>
      obtain ⟨rfl, rfl⟩ := List.cons.inj split
      have waits : key ∈ run.tables.unfinished.map Prod.fst :=
        all ▸ List.mem_append_right _ List.mem_cons_self
      obtain ⟨⟨_, group⟩, open_, rfl⟩ := List.mem_map.mp waits
      have found := sorted.get?_of_mem (List.mem_filter.mp open_).1
      have noted := congrArg (fun notes : Notes => notes.report.unfinished)
        (notes_advance_giveUp agenda found moved)
      refine .leaving stuck tail suffix (pops rfl) ?_
      rw [late rfl, ← all, show next.report.unfinished = run.report.unfinished ++ [_] from noted]
      exact List.append_assoc ..

/-! ### Faithful runs -/

/-- What holds of a run of any tasks all along. -/
structure Faithful (run : Run σ) (tasks : List Task) (listed : List Nat) (acts : List Act) :
    Prop where
  healthy : run.Healthy
  heeded : run.ledger.Heeded
  weighed : run.ledger.Weighed
  tables : ∀ number : Nat, (run.tasks[number]?).map Task.table = (tasks[number]?).map Task.table
  right : run.notes.Right tasks listed run.ledger.custody
  resigns : run.Resigns
  carried : run.ledger.custody.Carried acts

/-- The tasks of the groups are listed. -/
theorem Faithful.listed_of_has (faithful : run.Faithful tasks listed acts) {number : Nat}
    (has : run.tables.Has number) : number ∈ listed ∧ ∃ task, tasks[number]? = some task := by
  obtain ⟨entry, member, among⟩ := has
  rw [(faithful.right.lists.groups entry member).among] at among
  obtain ⟨mine, planned, known, _⟩ := Task.mem_listedOf.mp among
  exact ⟨mine, planned, known⟩

/-- What is pending is about a listed task. -/
theorem Faithful.listedOf_of_pending (faithful : run.Faithful tasks listed acts) {number : Nat}
    {task : Task} {delivery : Delivery} (found : run.tasks[number]? = some task)
    (pending : run.ledger.Pending number delivery) :
    number ∈ Task.listedOf tasks listed task.table.fullName := by
  have has : run.tables.Has number := by
    rcases pending with planned | ⟨job, held, rfl, _⟩
    · exact faithful.heeded.within.duties _ planned number rfl
    · exact faithful.heeded.within.jobs job held
  obtain ⟨mine, planned, known⟩ := faithful.listed_of_has has
  have same := faithful.tables number
  rw [found, known] at same
  have same : task.table = planned.table := Option.some.inj same
  exact Task.mem_listedOf.mpr ⟨mine, planned, known, by rw [same]⟩

/-- What a move notes is right. -/
theorem Faithful.deals (faithful : run.Faithful tasks listed acts) {move : Move}
    (deals : run.Deals move next) : next.notes.Right tasks listed run.ledger.custody := by
  cases deals with
  | nothing same => exact same ▸ faithful.right
  | fail found pending after =>
    have failed := (faithful.heeded.pending _ _ pending).2
    rw [after]
    exact faithful.right.fail ⟨_, faithful.listedOf_of_pending found pending, failed⟩
  | @finish key rest group _ head found ended after =>
    obtain ⟨_, other, _, going, found'⟩ := faithful.weighed.judge head
    have found' : run.tables.get? key = some other := found'
    cases found.symm.trans found'
    rw [after]
    refine faithful.right.finish found going (fun number member => ?_)
      (tableFailed_iff faithful.right found) ?_
    · exact closed_of_ended faithful.right faithful.tables found member
        (List.all_eq_true.mp ended number member)
    · rw [← List.countP_eq_length_filter]
      exact List.countP_congr fun number _ => by rw [hasFailed_eq]
  | giveUp _ _ _ after => exact after ▸ faithful.right.giveUp _

/-- **A move keeps a run faithful.** -/
theorem Faithful.step {move : Move} (faithful : run.Faithful tasks listed acts)
    (moved : run.step engines move = some next) :
    next.Faithful tasks listed (acts ++ run.acts engines move) := by
  obtain ⟨healthy, heeded, weighed, tables, right, resigns, carried⟩ := faithful
  have step := Campaign.step_finishes moved
  have goes := healthy.goes moved
  have noted := Faithful.deals ⟨healthy, heeded, weighed, tables, right, resigns, carried⟩
    (step_deals moved)
  refine {
    healthy := healthy.step moved
    heeded := step.heeded healthy.sound goes heeded healthy.idle fun _ => healthy.heading.unlisten
    weighed := step.weighed healthy.orderly healthy.balanced healthy.covered goes weighed
    tables := fun number => ?_
    right := noted.step goes healthy.sound
    resigns := resigns.step right.lists.sorted moved
    carried := goes.carried healthy.sound carried }
  have same := goes.table healthy.sound number
  rw [table_custody, table_custody] at same
  exact same.trans (tables number)

/-- **So do some moves, one after the other.** -/
theorem Faithful.steps {moves : List Move} (faithful : run.Faithful tasks listed acts)
    (moved : run.steps engines moves = some last) :
    last.Faithful tasks listed (acts ++ run.trace engines moves) := by
  have keep : ∀ acts (run : Run σ) move next, run.Faithful tasks listed acts →
      run.step engines move = some next →
      next.Faithful tasks listed (acts ++ run.acts engines move) :=
    fun _ _ _ _ faithful moved => faithful.step moved
  exact steps_keep keep faithful moved

end Run

/-! ### The beginning -/

/-- Whoever is listed is listened to. -/
theorem Task.listener_listenTo {number : Nat} {listed : List Nat} {tasks : List Task} {task : Task}
    (listens : number ∈ listed ∨
      ∀ task, tasks[number]? = some task → task.listener = some .scheduler)
    (found : (listed.foldl listenTo tasks)[number]? = some task) :
    task.listener = some .scheduler := by
  induction listed generalizing tasks with
  | nil => exact (listens.resolve_left List.not_mem_nil) task found
  | cons other rest hyp =>
    refine hyp ?_ found
    by_cases behind : number ∈ rest
    · exact .inl behind
    refine .inr fun after found => ?_
    unfold listenTo at found
    rw [List.getElem?_modify] at found
    obtain ⟨before, known, rfl⟩ := Option.map_eq_some_iff.mp found
    split
    · rfl
    · rename_i apart
      refine listens.elim (fun mine => ?_) fun heard => heard before known
      rcases List.mem_cons.mp mine with same | behind'
      · exact absurd same.symm apart
      · exact absurd behind' behind

namespace Scheduler.Begins

variable {σ : Type} {scheduler : Scheduler} {tasks : List Task} {listed : List Nat} {state : σ}
  {run : Run σ}

theorem heeded (begins : Begins scheduler tasks listed state run) : run.ledger.Heeded where
  within := by
    refine ⟨fun duty planned number about => ?_, fun job member => ?_⟩
    · have late := begins.agenda_late duty planned
      cases duty <;> first | cases about; done | exact absurd late (by simp [Duty.rank])
    · rw [show run.ledger.jobs = 0 from begins.jobs] at member
      exact absurd member (Multiset.notMem_zero job)
  listening := by
    refine .inr fun number task has found => ?_
    have found : run.tasks[number]? = some task := found
    rw [begins.heard] at found
    refine Task.listener_listenTo (.inl ?_) found
    obtain ⟨entry, member, among⟩ := has
    have member : entry ∈ run.tables := member
    rw [begins.grouped] at member
    rw [((Grouping.lists_ofTasks tasks listed).groups entry member).among] at among
    exact (Task.mem_listedOf.mp among).1
  pending _ _ pending := absurd pending begins.not_pending

theorem weighed (begins : Begins scheduler tasks listed state run) : run.ledger.Weighed := by
  have judging : Duty.judging run.ledger.agenda = [] :=
    Duty.judging_of_rank fun duty planned two => by
      have late := begins.agenda_late duty planned
      omega
  have agenda : run.ledger.agenda = _ := begins.agenda
  have grouped : run.ledger.tables = _ := begins.grouped
  refine ⟨grouped ▸ (Grouping.lists_ofTasks tasks listed).sorted, ?_, ?_, fun testing => ?_,
    fun closing entry member => ?_⟩
  · rw [judging]
    exact List.nodup_nil
  · rw [judging]
    exact List.forall_mem_nil _
  · rw [agenda] at testing
    split at testing
    · cases Duty.rank_closing testing
    · cases List.mem_singleton.mp testing
  · rw [agenda] at closing
    rw [grouped] at member
    split at closing
    · rename_i empty
      rw [List.isEmpty_iff.mp empty] at member
      cases member
    · cases closing .beginPass List.mem_cons_self

theorem right (begins : Begins scheduler tasks listed state run) :
    run.notes.Right tasks listed run.ledger.custody := by
  have notes : run.notes = ⟨Grouping.ofTasks tasks listed, .empty, []⟩ := by
    unfold Run.notes
    rw [begins.grouped, begins.report, begins.failedTables]
  rw [notes]
  exact {
    lists := Grouping.lists_ofTasks tasks listed
    failing := List.forall_mem_nil _
    once := List.nodup_nil
    finished := fun name => by
      refine ⟨nofun, fun ⟨group, member, done⟩ => ?_⟩
      rw [Grouping.unfinished_ofTasks tasks listed _ member] at done
      cases done
    succeeded := List.forall_mem_nil _
    ended := List.forall_mem_nil _
    failed := List.forall_mem_nil _
    succeededTasks := Custody.tally_nil.symm
    failedTasks := Custody.tally_nil.symm }

theorem resigns (begins : Begins scheduler tasks listed state run) : run.Resigns := by
  have agenda := begins.agenda
  split at agenda
  · rename_i empty
    refine .leaving [] Duty.closing (List.suffix_refl _) agenda ?_
    rw [begins.report, begins.grouped, List.isEmpty_iff.mp empty]
    rfl
  · exact .passing ⟨[], .beginPass, agenda, rfl, List.forall_mem_nil _⟩ (by rw [begins.report]; rfl)

/-- **A run begins faithfully**, whatever its tasks are. -/
theorem faithful (begins : Begins scheduler tasks listed state run) :
    run.Faithful tasks listed [] where
  healthy := begins.healthy
  heeded := begins.heeded
  weighed := begins.weighed
  tables number := by
    have same := congrFun (congrArg Custody.tasks (Campaign.custody_begins begins)) number
    have tables := congrArg (Option.map Task.table) same
    rw [Run.table_custody, Option.map_map] at tables
    exact tables
  right := begins.right
  resigns := begins.resigns
  carried _ _ member := by cases member

end Scheduler.Begins

/-! ### The report -/

/-- The listed tasks, each as often as it is listed. -/
def Task.entries (tasks : List Task) (listed : List Nat) : List Task :=
  listed.filterMap fun number => tasks[number]?

/-- Those of some tasks whose table has a full name. -/
def Task.ofTable (entries : List Task) (name : String) : List Task :=
  entries.filter fun task => task.table.fullName == name

/-- Whether a report says of the tables of some tasks what has become of them. -/
structure Report.Tells (report : Report) (entries : List Task) : Prop where
  once : (report.succeeded ++ report.failed ++ report.unfinished).Nodup
  named : ∀ name, name ∈ report.succeeded ++ report.failed ++ report.unfinished ↔
    ∃ task ∈ entries, task.table.fullName = name
  succeeded : ∀ name, name ∈ report.succeeded ↔ Task.ofTable entries name ≠ [] ∧
    ∀ task ∈ Task.ofTable entries name, task.progress = .succeeded
  failed : ∀ name, name ∈ report.failed ↔
    (∀ task ∈ Task.ofTable entries name, task.progress.isTerminal = true) ∧
      ∃ task ∈ Task.ofTable entries name, task.progress = .failed
  unfinished : ∀ name, name ∈ report.unfinished ↔
    ∃ task ∈ Task.ofTable entries name, task.progress.isTerminal = false
  succeededTasks : report.succeededTasks = entries.countP fun task =>
    task.progress == .succeeded && (report.succeeded ++ report.failed).contains task.table.fullName
  failedTasks : report.failedTasks = entries.countP fun task =>
    task.progress == .failed && (report.succeeded ++ report.failed).contains task.table.fullName

/-- What is said of each table decides about it, as every table is in one of the lists. -/
theorem Report.Tells.of {report : Report} {entries : List Task}
    (once : (report.succeeded ++ report.failed ++ report.unfinished).Nodup)
    (named : ∀ name, name ∈ report.succeeded ++ report.failed ++ report.unfinished ↔
      ∃ task ∈ entries, task.table.fullName = name)
    (succeeded : ∀ name ∈ report.succeeded, ∀ task ∈ Task.ofTable entries name,
      task.progress = .succeeded)
    (failed : ∀ name ∈ report.failed,
      (∀ task ∈ Task.ofTable entries name, task.progress.isTerminal = true) ∧
        ∃ task ∈ Task.ofTable entries name, task.progress = .failed)
    (unfinished : ∀ name ∈ report.unfinished,
      ∃ task ∈ Task.ofTable entries name, task.progress.isTerminal = false)
    (succeededTasks : report.succeededTasks = entries.countP fun task => task.progress == .succeeded &&
      (report.succeeded ++ report.failed).contains task.table.fullName)
    (failedTasks : report.failedTasks = entries.countP fun task => task.progress == .failed &&
      (report.succeeded ++ report.failed).contains task.table.fullName) :
    report.Tells entries := by
  have listed : ∀ {name task}, task ∈ Task.ofTable entries name →
      (name ∈ report.succeeded ∨ name ∈ report.failed) ∨ name ∈ report.unfinished := by
    intro name task member
    obtain ⟨mine, same⟩ := List.mem_filter.mp member
    have present := (named name).mpr ⟨task, mine, beq_iff_eq.mp same⟩
    rwa [List.mem_append, List.mem_append] at present
  refine ⟨once, named, fun name => ⟨fun member => ⟨?_, succeeded name member⟩, ?_⟩,
    fun name => ⟨failed name, ?_⟩, fun name => ⟨unfinished name, ?_⟩, succeededTasks, failedTasks⟩
  · obtain ⟨task, mine, same⟩ :=
      (named name).mp (List.mem_append_left _ (List.mem_append_left _ member))
    exact List.ne_nil_of_mem (List.mem_filter.mpr ⟨mine, beq_iff_eq.mpr same⟩)
  · rintro ⟨filled, all⟩
    obtain ⟨task, member⟩ := List.exists_mem_of_ne_nil _ filled
    rcases listed member with (done | past) | open_
    · exact done
    · obtain ⟨_, other, mine, progress⟩ := failed name past
      rw [all other mine] at progress
      cases progress
    · obtain ⟨other, mine, progress⟩ := unfinished name open_
      rw [all other mine] at progress
      cases progress
  · rintro ⟨all, task, member, progress⟩
    rcases listed member with (done | past) | open_
    · rw [succeeded name done task member] at progress
      cases progress
    · exact past
    · obtain ⟨other, mine, going⟩ := unfinished name open_
      rw [all other mine] at going
      cases going
  · rintro ⟨task, member, going⟩
    rcases listed member with (done | past) | open_
    · rw [succeeded name done task member] at going
      cases going
    · rw [(failed name past).1 task member] at going
      cases going
    · exact open_

namespace Run

variable {σ : Type} {engines : Engines σ} {run next last : Run σ} {tasks : List Task}
  {listed : List Nat} {acts : List Act}

/-- Tables are told apart as they were when the tasks were planned. -/
theorem ofTable_entries
    (tables : ∀ number : Nat, (run.tasks[number]?).map Task.table = (tasks[number]?).map Task.table)
    (name : String) : Task.ofTable (Task.entries run.tasks listed) name =
      (Task.listedOf tasks listed name).filterMap fun number => run.tasks[number]? := by
  unfold Task.ofTable Task.entries Task.listedOf
  rw [List.filter_filterMap, List.filterMap_filter]
  refine List.filterMap_congr fun number _ => ?_
  have same := tables number
  cases found : run.tasks[number]? with
  | none => simp
  | some task =>
    obtain ⟨planned, known, equal⟩ := Task.found_of_tables same found
    rw [known, Option.any_some, equal]
    rfl

theorem mem_ofTable
    (tables : ∀ number : Nat, (run.tasks[number]?).map Task.table = (tasks[number]?).map Task.table)
    {name : String} {task : Task} : task ∈ Task.ofTable (Task.entries run.tasks listed) name ↔
      ∃ number ∈ Task.listedOf tasks listed name, run.tasks[number]? = some task := by
  rw [ofTable_entries tables]
  exact List.mem_filterMap

theorem tally_entries
    (tables : ∀ number : Nat, (run.tasks[number]?).map Task.table = (tasks[number]?).map Task.table)
    (names : List String) (progress : Progress) :
    run.ledger.custody.tally tasks listed names progress =
      (Task.entries run.tasks listed).countP fun task =>
        task.progress == progress && names.contains task.table.fullName := by
  unfold Custody.tally Task.entries
  rw [List.countP_filterMap]
  refine List.countP_congr fun number _ => ?_
  rw [Bool.and_eq_true_iff, decide_eq_true_iff, shows_iff, Task.isAmong_iff]
  have same := tables number
  cases found : run.tasks[number]? with
  | none => simp
  | some task =>
    obtain ⟨planned, known, equal⟩ := Task.found_of_tables same found
    simp [known, equal]

theorem exists_ofTable
    (tables : ∀ number : Nat, (run.tasks[number]?).map Task.table = (tasks[number]?).map Task.table)
    {name : String} {number : Nat} (mine : number ∈ Task.listedOf tasks listed name) :
    ∃ task, run.tasks[number]? = some task ∧
      task ∈ Task.ofTable (Task.entries run.tasks listed) name := by
  obtain ⟨_, planned, known, _⟩ := Task.mem_listedOf.mp mine
  obtain ⟨task, found, _⟩ := Task.found_of_tables (tables number).symm known
  exact ⟨task, found, (mem_ofTable tables).mpr ⟨number, mine, found⟩⟩

/-- In the end all tables that are not finished have been given up. -/
theorem Resigns.givenUp (resigns : run.Resigns) (past : run.isOver = true) :
    run.report.unfinished = run.tables.unfinished.map Prod.fst := by
  have agenda : run.agenda = [] := List.isEmpty_iff.mp past
  cases resigns with
  | passing pass =>
    obtain ⟨front, decide, split, _⟩ := pass
    rw [agenda] at split
    exact absurd split.symm (List.append_ne_nil_of_right_ne_nil _ (List.cons_ne_nil _ _))
  | leaving stuck tail _ split all =>
    rw [agenda] at split
    obtain ⟨empty, _⟩ := List.append_eq_nil_iff.mp split.symm
    rw [List.map_eq_nil_iff.mp empty, List.append_nil] at all
    exact all

theorem Resigns.mem_unfinished (resigns : run.Resigns) (past : run.isOver = true) {name : String} :
    name ∈ run.report.unfinished ↔
      ∃ group, (name, group) ∈ run.tables ∧ group.finished = false := by
  rw [resigns.givenUp past, List.mem_map]
  constructor
  · rintro ⟨⟨_, group⟩, open_, rfl⟩
    obtain ⟨member, going⟩ := List.mem_filter.mp open_
    exact ⟨group, member, by simpa using going⟩
  · rintro ⟨group, member, going⟩
    exact ⟨(name, group), List.mem_filter.mpr ⟨member, by rw [going]; rfl⟩, rfl⟩

/-- No table is reported twice. -/
theorem Faithful.once (faithful : run.Faithful tasks listed acts) (past : run.isOver = true) :
    (run.report.succeeded ++ run.report.failed ++ run.report.unfinished).Nodup := by
  have sorted := faithful.right.lists.sorted
  refine List.nodup_append.mpr ⟨faithful.right.once, ?_, fun name done other open_ => ?_⟩
  · rw [faithful.resigns.givenUp past]
    have sorted : Keyed.Sorted run.tables.unfinished := sorted.sublist List.filter_sublist
    exact sorted.nodup
  · rintro rfl
    obtain ⟨group, member, finished⟩ := (faithful.right.finished name).mp done
    obtain ⟨group', member', going⟩ := (faithful.resigns.mem_unfinished past).mp open_
    cases (sorted.get?_of_mem member).symm.trans (sorted.get?_of_mem member')
    have finished : group.finished = true := finished
    rw [going] at finished
    cases finished

/-- Exactly the tables of the listed tasks are reported. -/
theorem Faithful.named (faithful : run.Faithful tasks listed acts) (past : run.isOver = true)
    (name : String) : name ∈ run.report.succeeded ++ run.report.failed ++ run.report.unfinished ↔
      ∃ task ∈ Task.entries run.tasks listed, task.table.fullName = name := by
  obtain ⟨_, _, _, tables, right, resigns, _⟩ := faithful
  have finished : name ∈ run.report.succeeded ++ run.report.failed ↔
      ∃ group, (name, group) ∈ run.tables ∧ group.finished = true := right.finished name
  rw [List.mem_append, finished, resigns.mem_unfinished past]
  constructor
  · intro grouped
    obtain ⟨group, member⟩ : ∃ group, (name, group) ∈ run.tables :=
      grouped.elim (fun ⟨group, member, _⟩ => ⟨group, member⟩) fun ⟨group, member, _⟩ => ⟨group, member⟩
    obtain ⟨_, among, number, _, last, _⟩ := right.lists.groups _ member
    have mine : number ∈ group.tasks := List.mem_of_getLast? last
    rw [show group.tasks = _ from among] at mine
    obtain ⟨task, _, mine⟩ := exists_ofTable tables mine
    obtain ⟨entry, same⟩ := List.mem_filter.mp mine
    exact ⟨task, entry, beq_iff_eq.mp same⟩
  · rintro ⟨task, entry, rfl⟩
    obtain ⟨number, mine, _⟩ :=
      (mem_ofTable tables).mp (List.mem_filter.mpr ⟨entry, beq_self_eq_true _⟩)
    obtain ⟨member, planned, known, named⟩ := Task.mem_listedOf.mp mine
    obtain ⟨group, present⟩ := right.lists.all number member planned known
    rw [named] at present
    cases done : group.finished with
    | true => exact .inl ⟨group, present, done⟩
    | false => exact .inr ⟨group, present, done⟩

/-- A table that was given up has a task that has not come to its end. -/
theorem Faithful.going (faithful : run.Faithful tasks listed acts) (past : run.isOver = true)
    {name : String} (member : name ∈ run.report.unfinished) :
    ∃ task ∈ Task.ofTable (Task.entries run.tasks listed) name,
      task.progress.isTerminal = false := by
  have agenda : run.ledger.agenda = [] := List.isEmpty_iff.mp past
  obtain ⟨group, present, going⟩ := (faithful.resigns.mem_unfinished past).mp member
  have closing : ∀ duty ∈ run.ledger.agenda, duty.rank = 4 := by
    rw [agenda]
    exact List.forall_mem_nil _
  obtain ⟨number, mine, open_⟩ := faithful.weighed.left closing _ present going
  rw [(faithful.right.lists.groups _ present).among] at mine
  obtain ⟨task, found, entry⟩ := exists_ofTable faithful.tables mine
  refine ⟨task, entry, Bool.eq_false_iff.mpr fun ended => open_ (Ledger.ended_custody.mpr ?_)⟩
  show (run.tasks[number]?).all _ = true
  rw [found]
  exact ended

/-- **A faithful run that is over has the right report.** -/
theorem Faithful.tells (faithful : run.Faithful tasks listed acts) (past : run.isOver = true) :
    run.report.Tells (Task.entries run.tasks listed) := by
  have tables := faithful.tables
  have right := faithful.right
  have of_shows : ∀ {number task progress}, run.ledger.custody.Shows number progress →
      run.tasks[number]? = some task → task.progress = progress := by
    intro number task progress shows found
    obtain ⟨after, known, same⟩ := shows_iff.mp shows
    cases found.symm.trans known
    exact same
  refine .of (faithful.once past) (faithful.named past) (fun name member task mine => ?_)
    (fun name member => ⟨fun task mine => ?_, ?_⟩) (fun name => faithful.going past)
    (right.succeededTasks.trans (tally_entries tables _ _))
    (right.failedTasks.trans (tally_entries tables _ _))
  · obtain ⟨number, mine, found⟩ := (mem_ofTable tables).mp mine
    exact of_shows (right.succeeded name member number mine) found
  · obtain ⟨number, mine, found⟩ := (mem_ofTable tables).mp mine
    rcases right.ended name member number mine with shows | shows <;>
      rw [of_shows shows found] <;> rfl
  · obtain ⟨number, mine, shows⟩ := right.failed name member
    obtain ⟨task, found, progress⟩ := shows_iff.mp shows
    exact ⟨task, (mem_ofTable tables).mpr ⟨number, mine, found⟩, progress⟩

/-- **The report of a run says of every table of the listed tasks what has become of it**, whatever
the tasks were, whatever the engines answer and whatever the order of the moves. It is about the tasks
as the run leaves them, and none of them is left with an action running that the run has handed out. -/
theorem verdicts {scheduler : Scheduler} {tasks : List Task} {listed : List Nat} {state : σ}
    {moves : List Move} (resting : scheduler.AtRest)
    (launched : scheduler.launch tasks listed state = .started run)
    (reached : run.steps engines moves = some last) (past : last.isOver = true) :
    last.tasks.map Task.table = tasks.map Task.table ∧
      last.report.Tells (Task.entries last.tasks listed) ∧
      ∀ number action, .dispatched number action ∈ run.trace engines moves →
        ∃ task progress, last.tasks[number]? = some task ∧
          task.actionProgress action = some progress ∧ progress.isTerminal = true := by
  have faithful : last.Faithful tasks listed ([] ++ run.trace engines moves) := by
    have keep : ∀ acts (now : Run σ) move next, now.Faithful tasks listed acts →
        now.step engines move = some next →
        next.Faithful tasks listed (acts ++ now.acts engines move) :=
      fun _ _ _ _ faithful moved => faithful.step moved
    exact steps_keep keep (resting.begins launched).faithful reached
  refine ⟨List.ext_getElem? fun number => ?_, faithful.tells past, fun number action handed => ?_⟩
  · rw [List.getElem?_map, List.getElem?_map]
    exact faithful.tables number
  · have away := congrArg Custody.items (Campaign.custody_over faithful.healthy.joining past)
    rcases faithful.carried number action handed with ⟨station, member⟩ |
      ⟨task, progress, found, now, final⟩
    · rw [away] at member
      exact absurd member (Multiset.notMem_zero _)
    · obtain ⟨heard, known, rfl⟩ := Option.map_eq_some_iff.mp found
      exact ⟨heard, progress, known, now, final⟩

/-- The table of the three tasks is reported as failed, with two tasks that did, and nothing that was
handed out is left running. -/
theorem verdicts_small : ∃ run last,
    smallScheduler.launch troubledTasks [0, 1, 2] () = .started run ∧
    run.steps troubledEngines troubledMoves = some last ∧ last.isOver = true ∧
    last.report = ⟨[], ["d.t"], [], 1, 2⟩ ∧
    .dispatched 2 .load ∈ run.trace troubledEngines troubledMoves ∧
    last.tasks.map Task.table = troubledTasks.map Task.table ∧
    last.report.Tells (Task.entries last.tasks [0, 1, 2]) ∧
    ∃ task progress, last.tasks[2]? = some task ∧ task.actionProgress .load = some progress ∧
      progress.isTerminal = true := by
  have goes : (smallScheduler.launch troubledTasks [0, 1, 2] ()).leads troubledEngines troubledMoves
      (fun run last => last.isOver ∧ last.report = ⟨[], ["d.t"], [], 1, 2⟩ ∧
        .dispatched 2 .load ∈ run.trace troubledEngines troubledMoves) = true := by decide +kernel
  obtain ⟨run, last, launched, reached, ends⟩ := Launch.of_leads goes
  obtain ⟨past, report, handed⟩ := of_decide_eq_true ends
  obtain ⟨tables, tells, carried⟩ :=
    verdicts (Scheduler.atRest_create none true true true _) launched reached past
  exact ⟨run, last, launched, reached, past, report, handed, tables, tells,
    carried 2 .load handed⟩

end Run

end TableMigration
