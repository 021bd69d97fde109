/-
**What a run writes on the rows of tables.**

* `Write.onRow` — the writes on the row of a table: of a failed attempt, or of a status without
  partitions.
* `Notes.Settled` — a table that was reported got the one write that its tasks call for, and every other
  table none.
* `Run.table_calls` — so a run that is over has made at most one such write for every table of its
  tasks, at the store of its scheduler and never on behalf of a task (`Task.Settles`).
-/

import TableMigration.Proofs.Verdicts

namespace TableMigration

/-! ### Writes on the row of a table -/

namespace Write

/-- The full name of the table that a write addresses. -/
def fullName : Write → String
  | .status database name _ _ | .failure database name => Table.joinNames database name

/-- Those of some writes that address the row of a table with a full name. -/
def onRow (writes : List (StoreRef × Write)) (name : String) : List (StoreRef × Write) :=
  writes.filter fun written => written.2.isOnRow && written.2.fullName == name

variable {writes : List (StoreRef × Write)} {name : String}

theorem onRow_append (first second : List (StoreRef × Write)) (name : String) :
    onRow (first ++ second) name = onRow first name ++ onRow second name :=
  List.filter_append ..

theorem onRow_eq_nil (beside : ∀ written ∈ writes, written.2.isOnRow = true →
    written.2.fullName ≠ name) : onRow writes name = [] := by
  refine List.filter_eq_nil_iff.mpr fun written member both => ?_
  obtain ⟨row, same⟩ := Bool.and_eq_true_iff.mp both
  exact beside written member row (beq_iff_eq.mp same)

/-- What is written on the row of a table is found there, and nowhere else. -/
theorem onRow_append_self {written : List (StoreRef × Write)}
    (all : ∀ call ∈ writes, call.2.isOnRow = true ∧ call.2.fullName = name) :
    onRow (written ++ writes) name = onRow written name ++ writes := by
  rw [onRow_append]
  congr 1
  refine List.filter_eq_self.mpr fun call member => ?_
  rw [(all call member).1, (all call member).2]
  exact beq_self_eq_true name

theorem onRow_append_of_ne {written : List (StoreRef × Write)} {other : String}
    (all : ∀ call ∈ writes, call.2.isOnRow = true ∧ call.2.fullName = name)
    (apart : other ≠ name) : onRow (written ++ writes) other = onRow written other := by
  have nothing : onRow writes other = [] :=
    onRow_eq_nil fun call member _ same => apart (same.symm.trans (all call member).2)
  rw [onRow_append, nothing, List.append_nil]

end Write

/-- Whether some calls are those by which a store learns what has become of the tasks of a table, the
last of which is given. -/
structure Task.Settles (entries : List Task) (last : Task) (store : StoreRef)
    (calls : List (StoreRef × Write)) : Prop where
  once : calls.length ≤ 1
  succeeded : calls = [(store, .status last.table.database last.table.name [] .succeeded)] ↔
    ∀ task ∈ entries, task.progress = .succeeded
  failed : calls = [(store, .failure last.table.database last.table.name)] ↔
    ∃ task ∈ entries, task.progress = .failed
  nothing : calls = [] ↔ (∃ task ∈ entries, task.progress.isTerminal = false) ∧
    ∀ task ∈ entries, task.progress ≠ .failed

namespace Task

variable {entries : List Task} {last : Task} {store : StoreRef} {calls : List (StoreRef × Write)}

theorem settles_succeeded (all : ∀ task ∈ entries, task.progress = .succeeded)
    (called : calls = [(store, .status last.table.database last.table.name [] .succeeded)]) :
    Settles entries last store calls where
  once := by rw [called]; exact Nat.le_refl 1
  succeeded := ⟨fun _ => all, fun _ => called⟩
  failed := by
    refine ⟨fun other => ?_, fun ⟨task, mine, failed⟩ => ?_⟩
    · rw [called] at other
      cases other
    · rw [all task mine] at failed
      cases failed
  nothing := by
    refine ⟨fun nothing => ?_, fun ⟨⟨task, mine, going⟩, _⟩ => ?_⟩
    · rw [called] at nothing
      cases nothing
    · rw [all task mine] at going
      cases going

theorem settles_failed (failing : ∃ task ∈ entries, task.progress = .failed)
    (called : calls = [(store, .failure last.table.database last.table.name)]) :
    Settles entries last store calls where
  once := by rw [called]; exact Nat.le_refl 1
  succeeded := by
    refine ⟨fun other => ?_, fun all => ?_⟩
    · rw [called] at other
      cases other
    · obtain ⟨task, mine, failed⟩ := failing
      rw [all task mine] at failed
      cases failed
  failed := ⟨fun _ => failing, fun _ => called⟩
  nothing := by
    refine ⟨fun nothing => ?_, fun ⟨_, never⟩ => ?_⟩
    · rw [called] at nothing
      cases nothing
    · obtain ⟨task, mine, failed⟩ := failing
      exact absurd failed (never task mine)

theorem settles_nothing (going : ∃ task ∈ entries, task.progress.isTerminal = false)
    (never : ∀ task ∈ entries, task.progress ≠ .failed) (silent : calls = []) :
    Settles entries last store calls where
  once := by rw [silent]; exact Nat.zero_le 1
  succeeded := by
    refine ⟨fun called => ?_, fun all => ?_⟩
    · rw [silent] at called
      cases called
    · obtain ⟨task, mine, open_⟩ := going
      rw [all task mine] at open_
      cases open_
  failed := by
    refine ⟨fun called => ?_, fun ⟨task, mine, failed⟩ => absurd failed (never task mine)⟩
    rw [silent] at called
    cases called
  nothing := ⟨fun _ => ⟨going, never⟩, fun _ => silent⟩

/-- **There are three ways to settle tasks.** -/
theorem Settles.cases (settles : Settles entries last store calls) :
    ((∀ task ∈ entries, task.progress = .succeeded) ∧
      calls = [(store, .status last.table.database last.table.name [] .succeeded)]) ∨
    ((∃ task ∈ entries, task.progress = .failed) ∧
      calls = [(store, .failure last.table.database last.table.name)]) ∨
    ((∃ task ∈ entries, task.progress.isTerminal = false) ∧
      (∀ task ∈ entries, task.progress ≠ .failed) ∧ calls = []) := by
  by_cases all : ∀ task ∈ entries, task.progress = .succeeded
  · exact .inl ⟨all, settles.succeeded.mpr all⟩
  by_cases failing : ∃ task ∈ entries, task.progress = .failed
  · exact .inr (.inl ⟨failing, settles.failed.mpr failing⟩)
  -- one of them has not succeeded, and as none has failed it has not come to its end
  have never : ∀ task ∈ entries, task.progress ≠ .failed :=
    fun task mine failed => failing ⟨task, mine, failed⟩
  push Not at all
  obtain ⟨task, mine, unfinished⟩ := all
  have unfailed := never task mine
  have open_ : task.progress.isTerminal = false := by
    cases progress : task.progress with
    | new | running => rfl
    | succeeded => exact absurd progress unfinished
    | failed => exact absurd progress unfailed
  have going : ∃ task ∈ entries, task.progress.isTerminal = false := ⟨task, mine, open_⟩
  exact .inr (.inr ⟨going, never, settles.nothing.mpr ⟨going, never⟩⟩)

end Task

/-! ### Who has failed -/

/-- What has become of a task that cannot go on stays as it is. -/
theorem Custody.Left.shows_iff {custody next : Custody}
    {answers : Nat → Task → Action → Execution → Prop} {acts : List Act} {number : Nat}
    {progress : Progress} (left : custody.Left number) (step : custody.Step answers acts next)
    (sound : custody.Sound) : next.Shows number progress ↔ custody.Shows number progress := by
  rcases left with ended | ⟨_, _, unready⟩
  · cases found : custody.tasks number with
    | none =>
      have table := step.table sound number
      rw [found] at table
      unfold Shows
      rw [found, Option.map_eq_none_iff.mp table]
    | some task =>
      obtain ⟨after, found', on⟩ := step.movesOn sound found
      unfold Shows
      rw [found, found']
      exact iff_of_eq (congrArg (some · = some progress) (on.ended (ended task found)))
  · unfold Shows
    rw [step.unmoved unready]

/-! ### Settled tables -/

/-- Whether the writes so far are those that the notes call for. -/
structure Notes.Settled (notes : Notes) (tasks : List Task) (listed : List Nat) (custody : Custody)
    (store : StoreRef) (written : List (StoreRef × Write)) : Prop where
  succeeded : ∀ name ∈ notes.report.succeeded, ∀ group, notes.tables.get? name = some group →
    Write.onRow written name = [(store, .status group.database group.name [] .succeeded)]
  failed : ∀ name ∈ notes.report.failed, ∀ group, notes.tables.get? name = some group →
    Write.onRow written name = [(store, .failure group.database group.name)]
  unfinished : ∀ name ∈ notes.report.unfinished, ∀ group, notes.tables.get? name = some group →
    (∃ number ∈ Task.listedOf tasks listed name, custody.Shows number .failed) ∧
        Write.onRow written name = [(store, .failure group.database group.name)] ∨
      (¬ ∃ number ∈ Task.listedOf tasks listed name, custody.Shows number .failed) ∧
        Write.onRow written name = []
  others : ∀ name, name ∉ notes.report.succeeded → name ∉ notes.report.failed →
    name ∉ notes.report.unfinished → Write.onRow written name = []

namespace Notes

variable {notes : Notes} {tasks : List Task} {listed : List Nat} {custody next : Custody}
  {store : StoreRef} {written writes : List (StoreRef × Write)}

/-- Writes besides those on the rows of tables change nothing. -/
theorem Settled.append (settled : notes.Settled tasks listed custody store written)
    (silent : ∀ name, Write.onRow writes name = []) :
    notes.Settled tasks listed custody store (written ++ writes) := by
  have same : ∀ name, Write.onRow (written ++ writes) name = Write.onRow written name := by
    intro name
    rw [Write.onRow_append, silent, List.append_nil]
  obtain ⟨succeeded, failed, unfinished, others⟩ := settled
  exact ⟨fun name => same name ▸ succeeded name, fun name => same name ▸ failed name,
    fun name => same name ▸ unfinished name, fun name => same name ▸ others name⟩

/-- The tasks may go on, but for those of tables that were given up. -/
theorem Settled.goOn (settled : notes.Settled tasks listed custody store written)
    (same : ∀ name ∈ notes.report.unfinished, ∀ number ∈ Task.listedOf tasks listed name,
      (next.Shows number .failed ↔ custody.Shows number .failed)) :
    notes.Settled tasks listed next store written where
  succeeded := settled.succeeded
  failed := settled.failed
  unfinished name member group present := by
    have equal : (∃ number ∈ Task.listedOf tasks listed name, next.Shows number .failed) ↔
        ∃ number ∈ Task.listedOf tasks listed name, custody.Shows number .failed :=
      exists_congr fun number => and_congr_right (same name member number)
    rw [equal]
    exact settled.unfinished name member group present
  others := settled.others

/-- **A table that is finished gets its write.** -/
theorem Settled.finish (settled : notes.Settled tasks listed custody store written) {key : String}
    {group : TableGroup} {isFailed : Bool} {failures : Nat} (fullName : group.fullName = key)
    (new : key ∉ notes.report.succeeded ∧ key ∉ notes.report.failed ∧
      key ∉ notes.report.unfinished) {write : Write}
    (wrote : write = if isFailed then .failure group.database group.name
      else .status group.database group.name [] .succeeded) :
    (notes.finish key group isFailed failures).Settled tasks listed custody store
      (written ++ [(store, write)]) := by
  have row : ∀ call ∈ [(store, write)], call.2.isOnRow = true ∧ call.2.fullName = key := by
    refine List.forall_mem_singleton.mpr ?_
    rw [wrote, ← fullName]
    cases isFailed <;> exact ⟨rfl, rfl⟩
  have mine : Write.onRow (written ++ [(store, write)]) key = [(store, write)] := by
    rw [Write.onRow_append_self row, settled.others key new.1 new.2.1 new.2.2]
    rfl
  have apart : ∀ {name}, name ≠ key →
      Write.onRow (written ++ [(store, write)]) name = Write.onRow written name :=
    Write.onRow_append_of_ne row
  have before : ∀ {name other}, name ≠ key →
      (notes.finish key group isFailed failures).tables.get? name = some other →
      notes.tables.get? name = some other :=
    fun apart found => (Keyed.get?_put_of_ne _ _ (Ne.symm apart)).symm.trans found
  have after : ∀ {other}, (notes.finish key group isFailed failures).tables.get? key = some other →
      other.database = group.database ∧ other.name = group.name := by
    intro other found
    cases (Keyed.get?_put_self ..).symm.trans found
    exact ⟨rfl, rfl⟩
  refine ⟨fun name member other found => ?_, fun name member other found => ?_,
    fun name member other found => ?_, fun name never never' never'' => ?_⟩
  · cases isFailed with
    | true =>
      have other' := ne_of_mem_of_not_mem member new.1
      rw [apart other']
      exact settled.succeeded name member other (before other' found)
    | false =>
      rcases List.mem_append.mp member with old | same
      · have other' := ne_of_mem_of_not_mem old new.1
        rw [apart other']
        exact settled.succeeded name old other (before other' found)
      · rw [List.mem_singleton.mp same, fullName] at found ⊢
        rw [mine, wrote, (after found).1, (after found).2]
        rfl
  · cases isFailed with
    | false =>
      have other' := ne_of_mem_of_not_mem member new.2.1
      rw [apart other']
      exact settled.failed name member other (before other' found)
    | true =>
      rcases List.mem_append.mp member with old | same
      · have other' := ne_of_mem_of_not_mem old new.2.1
        rw [apart other']
        exact settled.failed name old other (before other' found)
      · rw [List.mem_singleton.mp same, fullName] at found ⊢
        rw [mine, wrote, (after found).1, (after found).2]
        rfl
  · rw [apart (ne_of_mem_of_not_mem member new.2.2)]
    exact settled.unfinished name member other (before (ne_of_mem_of_not_mem member new.2.2) found)
  · have old : name ∉ notes.report.succeeded ∧ name ∉ notes.report.failed ∧ name ≠ key := by
      cases isFailed with
      | true =>
        exact ⟨never, fun old => never' (List.mem_append_left _ old), fun same =>
          never' (List.mem_append_right _ (List.mem_singleton.mpr (same.trans fullName.symm)))⟩
      | false =>
        exact ⟨fun old => never (List.mem_append_left _ old), never', fun same =>
          never (List.mem_append_right _ (List.mem_singleton.mpr (same.trans fullName.symm)))⟩
    rw [apart old.2.2]
    exact settled.others name old.1 old.2.1 never''

/-- **A table that is given up gets a write if one of its tasks has failed.** -/
theorem Settled.giveUp (settled : notes.Settled tasks listed custody store written) {key : String}
    {group : TableGroup} (found : notes.tables.get? key = some group)
    (fullName : group.fullName = key)
    (new : key ∉ notes.report.succeeded ∧ key ∉ notes.report.failed ∧
      key ∉ notes.report.unfinished) {isFailed : Bool}
    (judged : isFailed = true ↔ ∃ number ∈ Task.listedOf tasks listed key,
      custody.Shows number .failed) :
    (notes.giveUp key).Settled tasks listed custody store
      (written ++ if isFailed then [(store, .failure group.database group.name)] else []) := by
  have row : ∀ call ∈ if isFailed then [(store, Write.failure group.database group.name)] else [],
      call.2.isOnRow = true ∧ call.2.fullName = key := by
    cases isFailed with
    | false => exact List.forall_mem_nil _
    | true => exact List.forall_mem_singleton.mpr ⟨rfl, fullName⟩
  have apart : ∀ {name}, name ≠ key → Write.onRow (written ++ if isFailed then
      [(store, .failure group.database group.name)] else []) name = Write.onRow written name :=
    Write.onRow_append_of_ne row
  refine ⟨fun name member other found => ?_, fun name member other found => ?_,
    fun name member other found' => ?_, fun name never never' never'' => ?_⟩
  · rw [apart (ne_of_mem_of_not_mem member new.1)]
    exact settled.succeeded name member other found
  · rw [apart (ne_of_mem_of_not_mem member new.2.1)]
    exact settled.failed name member other found
  · rcases List.mem_append.mp member with old | same
    · rw [apart (ne_of_mem_of_not_mem old new.2.2)]
      exact settled.unfinished name old other found'
    · rw [List.mem_singleton.mp same] at found' ⊢
      cases found.symm.trans found'
      rw [Write.onRow_append_self row, settled.others key new.1 new.2.1 new.2.2, ← judged]
      cases isFailed with
      | true => exact .inl ⟨rfl, rfl⟩
      | false => exact .inr ⟨nofun, rfl⟩
  · have other : name ≠ key := fun same =>
      never'' (List.mem_append_right _ (List.mem_singleton.mpr same))
    rw [apart other]
    exact settled.others name never never' fun old => never'' (List.mem_append_left _ old)

end Notes

namespace Run

variable {σ : Type} {engines : Engines σ} {run next last : Run σ} {tasks : List Task}
  {listed : List Nat} {acts : List Act} {move : Move} {key : String} {group : TableGroup}

/-! ### What a run writes, move by move -/

/-- What is written on behalf of a task is not written on the row of a table. -/
theorem Faithful.silent (faithful : run.Faithful tasks listed acts) (serves : run.ServesOnly move) :
    ∀ call ∈ run.writes move, call.2.isOnRow = false := by
  intro call member
  obtain ⟨number, task, _, _, served⟩ := serves call member
  cases served with
  | @delivery store write known pending =>
    have heeds := faithful.heeded.pending number _ pending
    cases write with
    | failure => exact heeds.elim
    | status => exact Bool.eq_false_iff.mpr fun empty => heeds (List.isEmpty_iff.mp empty)
  | mismatch filled => exact Bool.eq_false_iff.mpr fun empty => filled (List.isEmpty_iff.mp empty)

/-- A table that is not finished was reported neither as succeeded nor as failed. -/
theorem Faithful.unfinished (faithful : run.Faithful tasks listed acts)
    (found : run.tables.get? key = some group) (going : group.finished = false) :
    key ∉ run.report.succeeded ∧ key ∉ run.report.failed := by
  refine not_or.mp fun reported => ?_
  obtain ⟨other, present, done⟩ := (faithful.right.finished key).mp (List.mem_append.mpr reported)
  cases found.symm.trans (faithful.right.lists.sorted.get?_of_mem present)
  rw [going] at done
  cases done

theorem rank_leaving {stuck : List String} {tail : List Duty} (suffix : tail <:+ Duty.closing)
    {duty : Duty} (planned : duty ∈ stuck.map .giveUp ++ tail) : duty.rank = 4 := by
  rcases List.mem_append.mp planned with giving | closing
  · obtain ⟨_, _, rfl⟩ := List.mem_map.mp giving
    rfl
  · exact Duty.rank_closing (suffix.subset closing)

theorem Resigns.closing (resigns : run.Resigns) (leaves : run.report.unfinished ≠ []) :
    ∀ duty ∈ run.agenda, duty.rank = 4 := by
  cases resigns with
  | passing _ clean => exact absurd clean leaves
  | leaving stuck tail suffix split _ =>
    rw [split]
    exact fun duty => rank_leaving suffix

/-- A table that is to be given up is not finished, and was not given up before. -/
theorem Faithful.giveUp (faithful : run.Faithful tasks listed acts) {rest : List Duty}
    (head : run.agenda = .giveUp key :: rest) (found : run.tables.get? key = some group) :
    group.finished = false ∧ key ∉ run.report.unfinished ∧ ∀ duty ∈ run.agenda, duty.rank = 4 := by
  have sorted := faithful.right.lists.sorted
  cases faithful.resigns with
  | passing pass =>
    have low := pass.rank_le (head ▸ List.mem_cons_self)
    exact absurd low (Nat.not_succ_le_self 3)
  | leaving stuck tail suffix split all =>
    have late : ∀ duty ∈ run.agenda, duty.rank = 4 := by
      rw [split]
      exact fun duty => rank_leaving suffix
    rw [head] at split
    cases stuck with
    | nil =>
      have split : .giveUp key :: rest = tail := split
      have closing : .giveUp key ∈ Duty.closing := suffix.subset (split ▸ List.mem_cons_self)
      have never : .giveUp key ∉ Duty.closing := by simp [Duty.closing, Engine.all]
      exact absurd closing never
    | cons name stuck =>
      cases (List.cons.inj split).1
      have once : (run.report.unfinished ++ key :: stuck).Nodup := by
        rw [all]
        have sorted : Keyed.Sorted run.tables.unfinished := sorted.sublist List.filter_sublist
        exact sorted.nodup
      have waits : key ∈ run.tables.unfinished.map Prod.fst :=
        all ▸ List.mem_append_right _ List.mem_cons_self
      obtain ⟨⟨_, other⟩, open_, rfl⟩ := List.mem_map.mp waits
      obtain ⟨member, going⟩ := List.mem_filter.mp open_
      cases found.symm.trans (sorted.get?_of_mem member)
      refine ⟨by simpa using going, fun before => ?_, late⟩
      exact (List.nodup_append.mp once).2.2 _ before _ List.mem_cons_self rfl

/-- What a move writes settles what it notes. -/
theorem Faithful.settles (faithful : run.Faithful tasks listed acts) {store : StoreRef}
    {written : List (StoreRef × Write)} (known : run.scheduler.store = some store)
    (settled : run.notes.Settled tasks listed run.ledger.custody store written)
    (deals : run.Deals move next) :
    next.notes.Settled tasks listed run.ledger.custody store (written ++ run.writes move) := by
  have silent : run.ServesOnly move → ∀ name, Write.onRow (run.writes move) name = [] := by
    intro serves name
    refine Write.onRow_eq_nil fun call member row => ?_
    rw [faithful.silent serves call member] at row
    cases row
  cases deals with
  | nothing same serves => exact same ▸ settled.append (silent serves)
  | fail found pending after serves =>
    have appended := settled.append (silent serves)
    rw [after]
    exact ⟨appended.succeeded, appended.failed, appended.unfinished, appended.others⟩
  | @finish key rest group advances head found ended after writes =>
    obtain ⟨_, other, _, going, found'⟩ := faithful.weighed.judge head
    have found' : run.tables.get? key = some other := found'
    cases found.symm.trans found'
    obtain ⟨fullName, _, _⟩ := faithful.right.lists.groups _ (Keyed.mem_of_get? found)
    obtain ⟨notSucceeded, notFailed⟩ := faithful.unfinished found going
    have notLeft : key ∉ run.report.unfinished := fun given => by
      cases faithful.resigns.closing (List.ne_nil_of_mem given) _ (head ▸ List.mem_cons_self)
    rw [after, writes, known]
    exact settled.finish fullName ⟨notSucceeded, notFailed, notLeft⟩ rfl
  | giveUp advances head found after writes =>
    obtain ⟨going, notLeft, _⟩ := faithful.giveUp head found
    obtain ⟨fullName, among, _⟩ := faithful.right.lists.groups _ (Keyed.mem_of_get? found)
    obtain ⟨notSucceeded, notFailed⟩ := faithful.unfinished found going
    have among : _ = Task.listedOf tasks listed _ := among
    rw [after, writes, known]
    exact settled.giveUp found fullName ⟨notSucceeded, notFailed, notLeft⟩
      (among ▸ tableFailed_iff faithful.right found)

/-- Once a table has been given up, nothing but the end is to come. -/
theorem Faithful.leaving (faithful : run.Faithful tasks listed acts) (deals : run.Deals move next)
    (leaves : next.report.unfinished ≠ []) : ∀ duty ∈ run.agenda, duty.rank = 4 := by
  cases deals with
  | nothing after | fail _ _ after | finish _ _ _ _ after =>
    have same : next.report.unfinished = run.report.unfinished :=
      congrArg (fun notes : Notes => notes.report.unfinished) after
    exact faithful.resigns.closing (same ▸ leaves)
  | giveUp _ head found => exact (faithful.giveUp head found).2.2

/-- What holds of a run and its writes all along. -/
structure Charged (run : Run σ) (tasks : List Task) (listed : List Nat) (acts : List Act)
    (store : StoreRef) (written : List (StoreRef × Write)) : Prop where
  faithful : run.Faithful tasks listed acts
  known : run.scheduler.store = some store
  settled : run.notes.Settled tasks listed run.ledger.custody store written

variable {store : StoreRef} {written : List (StoreRef × Write)}

/-- **A move keeps all tables settled.** -/
theorem Charged.step (charged : run.Charged tasks listed acts store written)
    (moved : run.step engines move = some next) :
    next.Charged tasks listed (acts ++ run.acts engines move) store
      (written ++ run.writes move) := by
  obtain ⟨faithful, known, settled⟩ := charged
  have goes := faithful.healthy.goes moved
  have deals := step_deals moved
  refine ⟨faithful.step moved, (step_frame moved).store.trans known,
    (faithful.settles known settled deals).goOn fun name member number mine => ?_⟩
  have left : run.ledger.custody.Left number := by
    refine faithful.healthy.covered.left (faithful.leaving deals (List.ne_nil_of_mem member)) number ?_
    obtain ⟨listed', planned, found, named⟩ := Task.mem_listedOf.mp mine
    obtain ⟨group, present⟩ := faithful.right.lists.all number listed' planned found
    refine ⟨_, present, ?_⟩
    rw [(faithful.right.lists.groups _ present).among]
    exact Task.mem_listedOf.mpr ⟨listed', planned, found, rfl⟩
  exact left.shows_iff goes faithful.healthy.sound

/-- **So do some moves.** -/
theorem Charged.steps {moves : List Move} (charged : run.Charged tasks listed acts store written)
    (moved : run.steps engines moves = some last) :
    last.Charged tasks listed (acts ++ run.trace engines moves) store
      (written ++ run.allWrites engines moves) := by
  have keep : ∀ acts written (run : Run σ) move next,
      run.Charged tasks listed acts store written → run.step engines move = some next →
      next.Charged tasks listed (acts ++ run.acts engines move) store
        (written ++ run.writes move) :=
    fun _ _ _ _ _ charged moved => charged.step moved
  exact steps_hold keep charged moved

/-- Before the first move nothing was written. -/
theorem charged_begins {scheduler : Scheduler} {state : σ}
    (begins : scheduler.Begins tasks listed state run) (known : scheduler.store = some store) :
    run.Charged tasks listed [] store [] where
  faithful := begins.faithful
  known := begins.store.trans known
  settled := by
    have report : run.notes.report = .empty := begins.report
    refine ⟨fun name member => ?_, fun name member => ?_, fun name member => ?_, fun _ _ _ _ => rfl⟩ <;>
      rw [report] at member <;> cases member

/-! ### The end of a run -/

/-- A group takes its names from the task of its table that was listed last. -/
theorem Faithful.last_ofTable (faithful : run.Faithful tasks listed acts)
    (found : run.tables.get? key = some group) : ∃ final,
      (Task.ofTable (Task.entries run.tasks listed) key).getLast? = some final ∧
        final.table.database = group.database ∧ final.table.name = group.name := by
  obtain ⟨_, among, number, planned, last, known, database, name⟩ :=
    faithful.right.lists.groups _ (Keyed.mem_of_get? found)
  have among : group.tasks = Task.listedOf tasks listed key := among
  obtain ⟨others, split⟩ := List.getLast?_eq_some_iff.mp last
  obtain ⟨final, found', equal⟩ := Task.found_of_tables (faithful.tables number).symm known
  refine ⟨final, ?_, by rw [equal, database], by rw [equal, name]⟩
  rw [ofTable_entries faithful.tables, ← among, split, List.filterMap_append,
    List.filterMap_cons_some found']
  exact List.getLast?_concat

/-- **In the end all tables are settled.** -/
theorem Charged.settles (charged : run.Charged tasks listed acts store written)
    (past : run.isOver = true) {name : String} {final : Task}
    (last : (Task.ofTable (Task.entries run.tasks listed) name).getLast? = some final) :
    Task.Settles (Task.ofTable (Task.entries run.tasks listed) name) final store
      (Write.onRow written name) := by
  obtain ⟨faithful, known, settled⟩ := charged
  have tells := faithful.tells past
  have sorted := faithful.right.lists.sorted
  have names : ∀ {group}, run.tables.get? name = some group →
      group.database = final.table.database ∧ group.name = final.table.name := by
    intro group found
    obtain ⟨final', last', database, same⟩ := faithful.last_ofTable found
    cases last.symm.trans last'
    exact ⟨database.symm, same.symm⟩
  have reported : (name ∈ run.report.succeeded ∨ name ∈ run.report.failed) ∨
      name ∈ run.report.unfinished := by
    obtain ⟨member, same⟩ := List.mem_filter.mp (List.mem_of_getLast? last)
    have all := (tells.named name).mpr ⟨final, member, beq_iff_eq.mp same⟩
    rwa [List.mem_append, List.mem_append] at all
  have grouped : name ∈ run.report.succeeded ++ run.report.failed →
      ∃ group, run.tables.get? name = some group := by
    intro done
    obtain ⟨group, present, _⟩ := (faithful.right.finished name).mp done
    exact ⟨group, sorted.get?_of_mem present⟩
  rcases reported with (succeeded | failed) | unfinished
  · obtain ⟨group, found⟩ := grouped (List.mem_append_left _ succeeded)
    have called := settled.succeeded name succeeded group found
    rw [(names found).1, (names found).2] at called
    exact Task.settles_succeeded ((tells.succeeded name).mp succeeded).2 called
  · obtain ⟨group, found⟩ := grouped (List.mem_append_right _ failed)
    have called := settled.failed name failed group found
    rw [(names found).1, (names found).2] at called
    exact Task.settles_failed ((tells.failed name).mp failed).2 called
  · obtain ⟨group, present, _⟩ := (faithful.resigns.mem_unfinished past).mp unfinished
    have found := sorted.get?_of_mem present
    have fails : (∃ number ∈ Task.listedOf tasks listed name,
        run.ledger.custody.Shows number .failed) ↔
          ∃ task ∈ Task.ofTable (Task.entries run.tasks listed) name, task.progress = .failed := by
      constructor
      · rintro ⟨number, mine, shows⟩
        obtain ⟨task, known, progress⟩ := shows_iff.mp shows
        exact ⟨task, (mem_ofTable faithful.tables).mpr ⟨number, mine, known⟩, progress⟩
      · rintro ⟨task, mine, progress⟩
        obtain ⟨number, mine, known⟩ := (mem_ofTable faithful.tables).mp mine
        exact ⟨number, mine, shows_iff.mpr ⟨task, known, progress⟩⟩
    rcases settled.unfinished name unfinished group found with ⟨failed, called⟩ | ⟨never, silent⟩
    · rw [(names found).1, (names found).2] at called
      exact Task.settles_failed (fails.mp failed) called
    · exact Task.settles_nothing ((tells.unfinished name).mp unfinished)
        (fun task mine failed => never (fails.mpr ⟨task, mine, failed⟩)) silent

/-- **A run writes on the row of a table at most once**, whatever its tasks were, whatever the engines
answer and whatever the order of the moves: that all its tasks have succeeded or that one has failed, at
the store of the scheduler and under the names of the last listed task of the table. It never does so on
behalf of a task. -/
theorem table_calls {scheduler : Scheduler} {tasks : List Task} {listed : List Nat} {state : σ}
    {moves : List Move} {store : StoreRef} (resting : scheduler.AtRest)
    (known : scheduler.store = some store)
    (launched : scheduler.launch tasks listed state = .started run)
    (reached : run.steps engines moves = some last) (past : last.isOver = true) :
    (∃ new, last.events = run.events ++ new ∧
      (∀ name final, (Task.ofTable (Task.entries last.tasks listed) name).getLast? = some final →
        Task.Settles (Task.ofTable (Task.entries last.tasks listed) name) final store
          (Write.onRow (Event.writes new) name)) ∧
      ∀ call ∈ Event.writes new, call.2.isOnRow = true →
        ∃ task ∈ Task.entries last.tasks listed, task.table.fullName = call.2.fullName) ∧
    ∀ before move after middle next, moves = before ++ move :: after →
      run.steps engines before = some middle → middle.step engines move = some next →
      ∃ new, next.events = middle.events ++ new ∧
        ∀ call ∈ Event.writes new, call.2.isOnRow = true → middle.client? move = none := by
  have begins := charged_begins (resting.begins launched) known
  refine ⟨?_, fun before move after middle next _ came moved => ?_⟩
  · have charged : last.Charged tasks listed ([] ++ run.trace engines moves) store
        ([] ++ run.allWrites engines moves) := begins.steps reached
    obtain ⟨new, events, shown⟩ := (steps_wrote reached).shown
    rw [List.nil_append, List.nil_append, ← shown] at charged
    refine ⟨new, events, fun name final => charged.settles past, fun call member row => ?_⟩
    by_contra never
    have tells := charged.faithful.tells past
    have unreported := mt (tells.named call.2.fullName).mp never
    rw [List.mem_append, List.mem_append, not_or, not_or] at unreported
    obtain ⟨⟨notSucceeded, notFailed⟩, notLeft⟩ := unreported
    have silent := charged.settled.others _ notSucceeded notFailed notLeft
    have called : call ∈ Write.onRow (Event.writes new) call.2.fullName :=
      List.mem_filter.mpr ⟨member, by rw [row]; exact beq_self_eq_true _⟩
    rw [silent] at called
    cases called
  · have charged := begins.steps came
    obtain ⟨new, events, shown⟩ := (step_wrote moved).shown
    refine ⟨new, events, fun call member row => ?_⟩
    rw [shown] at member
    cases step_deals moved with
    | nothing _ serves | fail _ _ _ serves =>
      rw [charged.faithful.silent serves call member] at row
      cases row
    | finish advances head | giveUp advances head =>
      subst advances
      simp only [client?, head, List.head?_cons]

/-- A scheduler with a store, whose pools have one worker each. -/
def storedScheduler : Scheduler :=
  .create (some 0) true true true fun _ => ⟨1, 1⟩

/-- Two tasks of the table have failed, and the store is told of one failure. -/
theorem table_calls_small : ∃ run last final new,
    storedScheduler.launch troubledTasks [0, 1, 2] () = .started run ∧
    run.steps troubledEngines troubledMoves = some last ∧ last.isOver = true ∧
    (Task.ofTable (Task.entries last.tasks [0, 1, 2]) "d.t").map Task.progress =
      [.failed, .succeeded, .failed] ∧ last.events = run.events ++ new ∧
    Task.Settles (Task.ofTable (Task.entries last.tasks [0, 1, 2]) "d.t") final 0
      (Write.onRow (Event.writes new) "d.t") ∧
    Write.onRow (Event.writes new) "d.t" = [(0, .failure "d" "t")] := by
  have goes : (storedScheduler.launch troubledTasks [0, 1, 2] ()).leads troubledEngines troubledMoves
      (fun _ last => last.isOver ∧
        (Task.ofTable (Task.entries last.tasks [0, 1, 2]) "d.t").map Task.progress =
          [.failed, .succeeded, .failed] ∧
        (Task.ofTable (Task.entries last.tasks [0, 1, 2]) "d.t").getLast?.map Task.table =
          some ⟨"d", "t", [], []⟩) = true := by decide +kernel
  obtain ⟨run, last, launched, reached, ends⟩ := Launch.of_leads goes
  obtain ⟨past, progress, table⟩ := of_decide_eq_true ends
  obtain ⟨final, isLast, table⟩ := Option.map_eq_some_iff.mp table
  obtain ⟨⟨new, events, settles, _⟩, _⟩ :=
    table_calls (Scheduler.atRest_create (some 0) true true true _) rfl launched reached past
  have settles := settles "d.t" final isLast
  refine ⟨run, last, final, new, launched, reached, past, progress, events, settles, ?_⟩
  have failed : .failed ∈ (Task.ofTable (Task.entries last.tasks [0, 1, 2]) "d.t").map
      Task.progress := progress ▸ List.mem_cons_self
  obtain ⟨task, mine, failed⟩ := List.mem_map.mp failed
  have called := settles.failed.mpr ⟨task, mine, failed⟩
  rw [table] at called
  exact called

end Run

end TableMigration
