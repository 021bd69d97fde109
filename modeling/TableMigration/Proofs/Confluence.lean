/-
**The order in which actions complete makes no difference to a store in memory.**

* `Run.Posted.paid` — a run that is over has written on partitions, for every task, what the end of the
  task settles and what its final verification found to differ, on each partition once at most
  (`Run.Posted.once`) and on none of another task (`Run.Posted.owned`).
* `Run.Posted.onRow_eq`, `Run.Posted.onPartition_eq` — two runs that begin alike, with fixed outcomes
  and with the same refusals, make the same writes on every row.
* `Run.confluent` — so they leave the same behind, whatever the order of their moves, if only the final
  verification brings a division of the partitions. `Run.order_matters` shows what others do.
-/

import TableMigration.Proofs.Additions
import TableMigration.Proofs.Effects
import TableMigration.Proofs.Migration
import TableMigration.Proofs.Postings

namespace TableMigration

/-! ### Writes on a partition -/

namespace Write

/-- What addresses a partition does not address the row of its table. -/
theorem onPartition_beside (writes : List (StoreRef × Write)) (name key : String) :
    onPartition (beside writes) name key = onPartition writes name key := by
  unfold onPartition beside
  rw [List.filter_filter]
  refine List.filter_congr fun call _ => ?_
  cases row : call.2.isOnRow with
  | false => exact Bool.and_true _
  | true => rw [touches_of_isOnRow row, Bool.and_false, Bool.false_and]

end Write

/-! ### What the end of a task settles -/

namespace Task

variable {task : Task} {call : StoreRef × Write} {name key : String}

/-- Whether a task has a partition with some key. -/
def Owns (task : Task) (key : String) : Prop :=
  ∃ partition ∈ task.table.partitions, partition.key = key

/-- Whether the division that a task has, if it has one, is of its own partitions. -/
def DividesOwn (task : Task) : Prop :=
  ∀ validation, task.validation = some validation →
    ∀ partition ∈ validation.succeeded, task.Owns partition.key

/-- Whether different tasks among the listed ones have different partitions of a table. -/
def KeysApart (tasks : List Task) (listed : List Nat) : Prop :=
  ∀ first ∈ listed, ∀ second ∈ listed, first ≠ second →
    ∀ task ∈ tasks[first]?, ∀ other ∈ tasks[second]?,
      task.table.fullName = other.table.fullName →
        ∀ partition ∈ task.table.partitions, ∀ partition' ∈ other.table.partitions,
          partition.key ≠ partition'.key

instance (tasks : List Task) (listed : List Nat) : Decidable (KeysApart tasks listed) :=
  inferInstanceAs (Decidable (∀ first ∈ listed, _))

theorem length_posts (task : Task) : task.posts.length ≤ 1 := by
  rcases task.posts_cases with nothing | ⟨_, _, _, _, only⟩
  · rw [nothing]
    exact Nat.zero_le 1
  · rw [only]
    exact Nat.le_refl 1

theorem length_mismatchWrites (task : Task) (store : StoreRef) :
    (task.mismatchWrites (some store)).length ≤ 1 := by
  rcases task.mismatchWrites_cases store with nothing | ⟨_, _, only⟩
  · rw [nothing]
    exact Nat.zero_le 1
  · rw [only]
    exact Nat.le_refl 1

/-- What a task settles on a partition is what its checkpoint says. -/
theorem mem_posts_onPartition (member : call ∈ Write.onPartition task.posts name key) :
    task.table.fullName = name ∧ ∃ status partitions,
      task.checkpoint = some (status, partitions) ∧
        ∃ partition ∈ partitions, partition.key = key := by
  obtain ⟨member, named, touches⟩ := Write.mem_onPartition.mp member
  rcases task.posts_cases with nothing | ⟨_, status, partitions, settles, only⟩
  · rw [nothing] at member
    cases member
  · rw [only] at member
    cases List.mem_singleton.mp member
    obtain ⟨partition, among, same⟩ := List.any_eq_true.mp touches
    exact ⟨named, status, partitions, settles, partition, among, beq_iff_eq.mp same⟩

/-- What a final verification records on a partition has been found to differ. -/
theorem mem_mismatchWrites_onPartition {store : StoreRef}
    (member : call ∈ Write.onPartition (task.mismatchWrites (some store)) name key) :
    task.table.fullName = name ∧ task.table.isPartitioned = true ∧
      ∃ partition ∈ task.validatePartitions.failed, partition.key = key := by
  obtain ⟨member, named, touches⟩ := Write.mem_onPartition.mp member
  rcases task.mismatchWrites_cases store with nothing | ⟨partitioned, _, only⟩
  · rw [nothing] at member
    cases member
  · rw [only] at member
    cases List.mem_singleton.mp member
    obtain ⟨partition, among, same⟩ := List.any_eq_true.mp touches
    exact ⟨named, partitioned, partition, among, beq_iff_eq.mp same⟩

end Task

namespace Custody

variable {start custody : Custody} {acts : List Act} {number : Nat} {task : Task}
  {outcome : Nat → Action → Execution} {status : Status} {partitions : List Partition}

/-- The end of a task settles none but its own partitions. -/
theorem Fated.owns (fated : Fated outcome start acts custody) (away : custody.items = 0)
    (found : custody.tasks number = some task)
    (divides : ∀ initial, start.tasks number = some initial → initial.DividesOwn)
    (settles : task.checkpoint = some (status, partitions)) :
    ∀ partition ∈ partitions, task.Owns partition.key := by
  have all : ∀ partition ∈ task.table.partitions, task.Owns partition.key :=
    fun partition mine => ⟨partition, mine, rfl⟩
  obtain ⟨partitioned, ⟨_, _, rfl⟩ | ⟨_, _, rfl⟩⟩ := Task.checkpoint_cases settles
  · exact all
  · cases divided : task.validation with
    | none => exact all
    | some validation =>
      by_cases done : ∃ execution, .executed number .finalVerification execution ∈ acts
      · obtain ⟨execution, executed⟩ := done
        have found' := fated.validation_of_executed away found partitioned executed
        cases divided.symm.trans found'
        exact fun partition mine => all partition (List.mem_of_mem_filter mine)
      · -- nothing but the final verification brings a division, so it is the first one
        obtain ⟨initial, began, on⟩ := fated.since.moved number task found
        have same := fated.undivided number task found initial began fun execution executed =>
          done ⟨execution, executed⟩
        intro partition mine
        obtain ⟨own, member, key⟩ := divides initial began validation (same ▸ divided) partition
          mine
        exact ⟨own, on.kind.table ▸ member, key⟩

end Custody

/-- The tasks of a table, what has become of them alike, settle it alike. -/
theorem Task.Settles.unique {entries entries' : List Task} {last last' : Task} {store : StoreRef}
    {calls calls' : List (StoreRef × Write)} (settles : Settles entries last store calls)
    (settles' : Settles entries' last' store calls') (table : last.table = last'.table)
    (succeeded : (∀ task ∈ entries, task.progress = .succeeded) ↔
      ∀ task ∈ entries', task.progress = .succeeded)
    (failed : (∃ task ∈ entries, task.progress = .failed) ↔
      ∃ task ∈ entries', task.progress = .failed) : calls = calls' := by
  rcases settles.cases with ⟨all, rfl⟩ | ⟨failing, rfl⟩ | ⟨⟨task, mine, going⟩, never, rfl⟩
  · rw [settles'.succeeded.mpr (succeeded.mp all), table]
  · rw [settles'.failed.mpr (failed.mp failing), table]
  · rcases settles'.cases with ⟨all, _⟩ | ⟨failing, _⟩ | ⟨_, _, rfl⟩
    · rw [succeeded.mpr all task mine] at going
      cases going
    · obtain ⟨other, its, failed⟩ := failed.mpr failing
      exact absurd failed (never other its)
    · rfl

/-! ### The end of a run -/

namespace Run

variable {σ : Type} {engines : Engines σ} {run run' origin : Run σ}
  {outcome : Nat → Action → Execution} {tasks : List Task} {listed : List Nat}
  {acts acts' : List Act} {store : StoreRef} {written written' : List (StoreRef × Write)}
  {posts posts' : Nat → List (StoreRef × Write)} {number : Nat} {task task' : Task}
  {name key : String}

/-- The tables of the tasks stay as they are. -/
theorem Faithful.tables_ofTable (faithful : run.Faithful tasks listed acts) (name : String) :
    (Task.ofTable (Task.entries run.tasks listed) name).map Task.table =
      (Task.listedOf tasks listed name).filterMap fun number => (tasks[number]?).map Task.table := by
  rw [ofTable_entries faithful.tables, List.map_filterMap]
  exact List.filterMap_congr fun number _ => faithful.tables number

/-- Nothing is written on the row of a table without listed tasks. -/
theorem Charged.onRow_of_absent (charged : run.Charged tasks listed acts store written)
    (past : run.isOver = true) (absent : Task.ofTable (Task.entries run.tasks listed) name = []) :
    Write.onRow written name = [] := by
  have unnamed : name ∉ run.report.succeeded ++ run.report.failed ++ run.report.unfinished := by
    rw [(charged.faithful.tells past).named]
    rintro ⟨task, member, named⟩
    exact List.filter_eq_nil_iff.mp absent task member (beq_iff_eq.mpr named)
  rw [List.mem_append, List.mem_append, not_or, not_or] at unnamed
  exact charged.settled.others name unnamed.1.1 unnamed.1.2 unnamed.2

section Over

variable (posted : run.Posted outcome origin tasks listed acts store written posts)
  (past : run.isOver = true)

include posted past

theorem Posted.away : run.ledger.custody.items = 0 := by
  rw [Campaign.custody_over posted.charged.faithful.healthy.joining past]

/-- A listed task is left behind. -/
theorem Posted.left (mine : number ∈ listed) (found : run.tasks[number]? = some task) :
    run.ledger.custody.Left number := by
  have faithful := posted.charged.faithful
  have has : run.tables.Has number := by
    obtain ⟨planned, known, _⟩ := Task.found_of_tables (faithful.tables number) found
    obtain ⟨group, present⟩ := faithful.right.lists.all number mine planned known
    refine ⟨_, present, ?_⟩
    rw [(faithful.right.lists.groups _ present).among]
    exact Task.mem_listedOf.mpr ⟨mine, planned, known, rfl⟩
  refine faithful.healthy.covered.left (fun duty planned => ?_) number has
  have agenda : run.agenda = [] := List.isEmpty_iff.mp past
  have planned : duty ∈ run.agenda := planned
  rw [agenda] at planned
  cases planned

/-- Nothing is written for a task that had come to its end before. -/
theorem Posted.unpaid (found : run.tasks[number]? = some task)
    (gone : origin.ledger.custody.Ended number) : posts number = [] := by
  have since := posted.fated.since
  have spared := since.spared number gone
  rw [custody_of_found found] at spared
  obtain ⟨initial, known, same⟩ := Option.map_eq_some_iff.mp spared.symm
  have same : initial.deaf.posts = task.deaf.posts := congrArg Task.posts same
  have same : initial.posts = task.posts := same
  have balance := posted.balanced number task initial found known
  have never : acts.countP (Act.executes number .finalVerification) = 0 := by
    refine List.countP_eq_zero.mpr fun act member executes => ?_
    exact Custody.not_ended_of_open (since.told act member number .finalVerification
      (Act.concerns_of_executes executes)) gone
  rw [owed_of_over posted.charged.faithful.healthy.joining past, add_zero, never, zero_nsmul,
    add_zero, same] at balance
  exact (Multiset.coe_eq_zero _).mp (add_eq_right.mp balance)

/-- **What was written for a task is what its end settles, and what its final verification found to
differ.** -/
theorem Posted.paid (found : run.tasks[number]? = some task)
    (going : ¬ origin.ledger.custody.Ended number) :
    (posts number : Multiset (StoreRef × Write)) = task.posts +
      acts.countP (Act.executes number .finalVerification) •
        (task.mismatchWrites (some store) : Multiset (StoreRef × Write)) := by
  obtain ⟨heard, began, _⟩ := posted.fated.since.moved number task.deaf (custody_of_found found)
  obtain ⟨initial, known, rfl⟩ := Option.map_eq_some_iff.mp began
  have open_ : initial.progress.isTerminal = false := by
    cases ended : initial.progress.isTerminal with
    | false => rfl
    | true =>
      refine absurd (fun heard began' => ?_) going
      cases began.symm.trans began'
      exact ended
  have balance := posted.balanced number task initial found known
  rwa [owed_of_over posted.charged.faithful.healthy.joining past, add_zero,
    Task.posts_of_going open_, Multiset.coe_nil, add_zero] at balance

/-- What was written for a task on a partition, likewise. -/
theorem Posted.paid_onPartition (found : run.tasks[number]? = some task)
    (going : ¬ origin.ledger.custody.Ended number) (name key : String) :
    (Write.onPartition (posts number) name key : Multiset (StoreRef × Write)) =
      Write.onPartition task.posts name key +
        acts.countP (Act.executes number .finalVerification) •
          (Write.onPartition (task.mismatchWrites (some store)) name key :
            Multiset (StoreRef × Write)) := by
  have shown := congrArg (Multiset.filter fun call : StoreRef × Write =>
    (call.2.fullName == name && call.2.touches key) = true) (posted.paid past found going)
  simp only [Multiset.filter_add, Multiset.filter_nsmul, Multiset.filter_coe,
    Bool.decide_eq_true] at shown
  exact shown

/-- **What is written for a task on a partition is written on one of its own.** -/
theorem Posted.owned
    (divides : ∀ number initial, origin.ledger.custody.tasks number = some initial →
      initial.DividesOwn)
    {call : StoreRef × Write} (member : call ∈ Write.onPartition (posts number) name key) :
    ∃ planned, number ∈ listed ∧ tasks[number]? = some planned ∧ planned.table.fullName = name ∧
      planned.Owns key := by
  obtain ⟨mine, planned, known⟩ :=
    posted.listed number (List.ne_nil_of_mem (Write.mem_onPartition.mp member).1)
  obtain ⟨task, found, table⟩ :=
    Task.found_of_tables (posted.charged.faithful.tables number).symm known
  refine ⟨planned, mine, known, ?_⟩
  unfold Task.Owns
  rw [← table]
  have going : ¬ origin.ledger.custody.Ended number := by
    intro gone
    rw [posted.unpaid past found gone] at member
    cases member
  have member : call ∈ (Write.onPartition (posts number) name key : Multiset (StoreRef × Write)) :=
    member
  rw [posted.paid_onPartition past found going] at member
  rcases Multiset.mem_add.mp member with settled | differing
  · obtain ⟨named, status, partitions, settles, partition, among, rfl⟩ :=
      Task.mem_posts_onPartition settled
    have heard : run.ledger.custody.tasks number = some task.deaf := custody_of_found found
    exact ⟨named, posted.fated.owns (posted.away past) heard (divides number) settles partition
      among⟩
  · obtain ⟨named, _, partition, among, rfl⟩ :=
      Task.mem_mismatchWrites_onPartition (Multiset.mem_of_mem_nsmul differing)
    exact ⟨named, partition, List.mem_of_mem_filter among, rfl⟩

/-- What a final verification found to differ is not settled. -/
theorem Posted.apart (found : run.tasks[number]? = some task)
    (done : 0 < acts.countP (Act.executes number .finalVerification)) (name key : String) :
    Write.onPartition task.posts name key = [] ∨
      Write.onPartition (task.mismatchWrites (some store)) name key = [] := by
  obtain ⟨act, member, executes⟩ := List.countP_pos_iff.mp done
  obtain ⟨execution, executed⟩ :
      ∃ execution, .executed number .finalVerification execution ∈ acts := by
    cases act with
    | executed other action execution =>
      obtain ⟨rfl, rfl⟩ := of_decide_eq_true executes
      exact ⟨execution, member⟩
    | _ => cases executes
  rw [or_iff_not_imp_left]
  intro written
  obtain ⟨call, member⟩ := List.exists_mem_of_ne_nil _ written
  obtain ⟨_, status, partitions, settles, partition, among, mine⟩ :=
    Task.mem_posts_onPartition member
  refine List.eq_nil_iff_forall_not_mem.mpr fun call' member' => ?_
  obtain ⟨_, partitioned, partition', among', mine'⟩ := Task.mem_mismatchWrites_onPartition member'
  have heard : run.ledger.custody.tasks number = Option.some task.deaf := custody_of_found found
  have settled : task.deaf.checkpoint =
      Option.some (task.deaf.failureStatus, task.deaf.validatePartitions.succeeded) :=
    posted.fated.checkpoint_of_differing (posted.away past) heard partitioned executed
      (List.ne_nil_of_mem among')
  have settled : task.checkpoint =
      Option.some (task.failureStatus, task.validatePartitions.succeeded) := settled
  cases settles.symm.trans settled
  -- both have the key, so their counts agree or differ alike
  have agrees := (List.mem_filter.mp among).2
  have differs := (List.mem_filter.mp among').2
  unfold Task.partitionAgrees at agrees differs
  rw [mine] at agrees
  rw [mine', agrees] at differs
  cases differs

/-- **A partition is written on for a task once at most.** -/
theorem Posted.once (found : run.tasks[number]? = some task) (name key : String) :
    (Write.onPartition (posts number) name key).length ≤ 1 := by
  have posts_le : (Write.onPartition task.posts name key).length ≤ 1 :=
    (List.length_filter_le _ _).trans task.length_posts
  have mismatch_le : (Write.onPartition (task.mismatchWrites (some store)) name key).length ≤ 1 :=
    (List.length_filter_le _ _).trans (task.length_mismatchWrites store)
  have executed_le : acts.countP (Act.executes number .finalVerification) ≤ 1 := by
    obtain ⟨_, story, _⟩ := posted.fated.since.coherent.tells number .finalVerification
    exact story.executed_once
  by_cases gone : origin.ledger.custody.Ended number
  · rw [posted.unpaid past found gone]
    exact Nat.zero_le 1
  have length := congrArg Multiset.card (posted.paid_onPartition past found gone name key)
  rw [Multiset.card_add, Multiset.card_nsmul, Multiset.coe_card, Multiset.coe_card,
    Multiset.coe_card] at length
  rcases Nat.eq_zero_or_pos (acts.countP (Act.executes number .finalVerification)) with never | done
  · rw [never] at length
    omega
  have single : acts.countP (Act.executes number .finalVerification) = 1 := by omega
  rw [single] at length
  rcases posted.apart past found done name key with silent | silent
  · rw [silent, List.length_nil] at length
    omega
  · rw [silent, List.length_nil] at length
    omega

end Over

section TwoRuns

variable (posted : run.Posted outcome origin tasks listed acts store written posts)
  (posted' : run'.Posted outcome origin tasks listed acts' store written' posts')
  (past : run.isOver = true) (past' : run'.isOver = true)
  (refusals : ∀ number action, .refused number action ∈ acts ↔ .refused number action ∈ acts')

include posted posted' past past' refusals

/-- A listed task has the same fate in both runs. -/
theorem Posted.ends_like (mine : number ∈ listed) (found : run.tasks[number]? = some task)
    (found' : run'.tasks[number]? = some task') : task.deaf.EndsLike task'.deaf :=
  posted.fated.ends_like posted'.fated (posted.away past) (posted'.away past')
    (custody_of_found found) (custody_of_found found') (posted.left past mine found)
    (posted'.left past' mine found') (refusals number)

/-- Both runs write the same for a task on a partition. -/
theorem Posted.posts_onPartition_eq (number : Nat) (name key : String) :
    Write.onPartition (posts number) name key = Write.onPartition (posts' number) name key := by
  by_cases mine : number ∈ listed ∧ ∃ planned, tasks[number]? = some planned
  swap
  · rw [not_not.mp (mt (posted.listed number) mine), not_not.mp (mt (posted'.listed number) mine)]
  obtain ⟨mine, planned, known⟩ := mine
  obtain ⟨task, found, _⟩ := Task.found_of_tables (posted.charged.faithful.tables number).symm known
  obtain ⟨task', found', _⟩ :=
    Task.found_of_tables (posted'.charged.faithful.tables number).symm known
  by_cases gone : origin.ledger.custody.Ended number
  · rw [posted.unpaid past found gone, posted'.unpaid past' found' gone]
  have ends := posted.ends_like posted' past past' refusals mine found found'
  have settled : task.posts = task'.posts := by
    have deliveries : task.deaf.checkpointDeliveries = task'.deaf.checkpointDeliveries :=
      Task.checkpointDeliveries_congr ends.kind ends.checkpoint
    have store : task.store = task'.store := ends.kind.store
    have deliveries : task.checkpointDeliveries = task'.checkpointDeliveries := deliveries
    unfold Task.posts
    rw [deliveries, store]
  have differing : task.mismatchWrites (some store) = task'.mismatchWrites (some store) := by
    have table : task.table = task'.table := ends.kind.table
    have division : task.validatePartitions = task'.validatePartitions :=
      Task.validatePartitions_congr table ends.agrees
    unfold Task.mismatchWrites
    rw [division, table]
  have executed : acts.countP (Act.executes number .finalVerification) =
      acts'.countP (Act.executes number .finalVerification) := by
    have told := posted.fated.about_eq posted'.fated (posted.away past) (posted'.away past')
      (custody_of_found found) (custody_of_found found') (posted.left past mine found)
      (posted'.left past' mine found') (refusals number) .finalVerification
    rw [← Act.countP_about, told, Act.countP_about]
  have perm := posted.paid_onPartition past found gone name key
  rw [settled, differing, executed, ← posted'.paid_onPartition past' found' gone] at perm
  -- there is one write at most, so that the order does not matter
  have perm := Multiset.coe_eq_coe.mp perm
  have once := posted.once past found name key
  generalize Write.onPartition (posts number) name key = made at perm once
  cases made with
  | nil => exact perm.nil_eq
  | cons call rest =>
    have alone : rest = [] := List.length_eq_zero_iff.mp (by simpa using once)
    rw [alone] at perm ⊢
    exact List.singleton_perm.mp perm

/-- A task of a table has its counterpart in the other run. -/
theorem Posted.counterpart
    (member : task' ∈ Task.ofTable (Task.entries run'.tasks listed) name) :
    ∃ task ∈ Task.ofTable (Task.entries run.tasks listed) name, ∀ progress : Progress,
      progress.isTerminal = true → (task.progress = progress ↔ task'.progress = progress) := by
  have tables := posted.charged.faithful.tables
  obtain ⟨number, among, found'⟩ := (mem_ofTable posted'.charged.faithful.tables).mp member
  obtain ⟨mine, planned, known, _⟩ := Task.mem_listedOf.mp among
  obtain ⟨task, found, _⟩ := Task.found_of_tables (tables number).symm known
  have ends := posted.ends_like posted' past past' refusals mine found found'
  exact ⟨task, (mem_ofTable tables).mpr ⟨number, among, found⟩, ends.ended⟩

/-- **Both runs write the same on the row of every table.** -/
theorem Posted.onRow_eq (name : String) : Write.onRow written name = Write.onRow written' name := by
  have tables : (Task.ofTable (Task.entries run.tasks listed) name).map Task.table =
      (Task.ofTable (Task.entries run'.tasks listed) name).map Task.table := by
    rw [posted.charged.faithful.tables_ofTable, posted'.charged.faithful.tables_ofTable]
  have lasts := congrArg List.getLast? tables
  rw [List.getLast?_map, List.getLast?_map] at lasts
  cases last : (Task.ofTable (Task.entries run.tasks listed) name).getLast? with
  | none =>
    rw [last] at lasts
    have last' := Option.map_eq_none_iff.mp lasts.symm
    rw [posted.charged.onRow_of_absent past (List.getLast?_eq_none_iff.mp last),
      posted'.charged.onRow_of_absent past' (List.getLast?_eq_none_iff.mp last')]
  | some final =>
    rw [last] at lasts
    obtain ⟨final', last', table⟩ := Option.map_eq_some_iff.mp lasts.symm
    have refusals' := fun number action => (refusals number action).symm
    refine (posted.charged.settles past last).unique (posted'.charged.settles past' last')
      table.symm ⟨fun all task' member' => ?_, fun all task member => ?_⟩
      ⟨fun ⟨task, member, failed⟩ => ?_, fun ⟨task', member', failed⟩ => ?_⟩
    · obtain ⟨task, member, alike⟩ := posted.counterpart posted' past past' refusals member'
      exact (alike .succeeded rfl).mp (all task member)
    · obtain ⟨task', member', alike⟩ := posted'.counterpart posted past' past refusals' member
      exact (alike .succeeded rfl).mp (all task' member')
    · obtain ⟨task', member', alike⟩ := posted'.counterpart posted past' past refusals' member
      exact ⟨task', member', (alike .failed rfl).mpr failed⟩
    · obtain ⟨task, member, alike⟩ := posted.counterpart posted' past past' refusals member'
      exact ⟨task, member, (alike .failed rfl).mpr failed⟩

/-- **Both runs write the same on every partition**, since it belongs to one task. -/
theorem Posted.onPartition_eq (apart : Task.KeysApart tasks listed)
    (divides : ∀ number initial, origin.ledger.custody.tasks number = some initial →
      initial.DividesOwn) (name key : String) :
    Write.onPartition written name key = Write.onPartition written' name key := by
  obtain ⟨number, only⟩ : ∃ number, ∀ other, other ≠ number →
      Write.onPartition (posts other) name key = [] := by
    by_cases wrote : ∃ number, Write.onPartition (posts number) name key ≠ []
    · obtain ⟨number, wrote⟩ := wrote
      refine ⟨number, fun other distinct => ?_⟩
      by_contra wrote'
      obtain ⟨call, member⟩ := List.exists_mem_of_ne_nil _ wrote
      obtain ⟨call', member'⟩ := List.exists_mem_of_ne_nil _ wrote'
      obtain ⟨planned, mine, known, named, own, among, same⟩ := posted.owned past divides member
      obtain ⟨planned', mine', known', named', own', among', same'⟩ :=
        posted.owned past divides member'
      exact apart number mine other mine' distinct.symm planned known planned' known'
        (named.trans named'.symm) own among own' among' (same.trans same'.symm)
    · exact ⟨0, fun other _ => not_not.mp fun more => wrote ⟨other, more⟩⟩
  have merges : ∀ {posts : Nat → List (StoreRef × Write)} {written : List (StoreRef × Write)},
      (∀ number (shown : StoreRef × Write → Bool),
        (∀ other, other ≠ number → ∀ call ∈ posts other, shown call = false) →
        (Write.beside written).filter shown = (posts number).filter shown) →
      (∀ other, other ≠ number → Write.onPartition (posts other) name key = []) →
      Write.onPartition written name key = Write.onPartition (posts number) name key := by
    intro posts written merged none
    rw [← Write.onPartition_beside]
    refine merged number _ fun other distinct call member => Bool.eq_false_iff.mpr fun shows => ?_
    have among : call ∈ Write.onPartition (posts other) name key :=
      List.mem_filter.mpr ⟨member, shows⟩
    rw [none other distinct] at among
    cases among
  rw [merges posted.merged only, merges posted'.merged fun other distinct =>
    (posted.posts_onPartition_eq posted' past past' refusals other name key).symm.trans
      (only other distinct)]
  exact posted.posts_onPartition_eq posted' past past' refusals number name key

end TwoRuns

end Run

/-! ### Tasks that were made from outside -/

namespace Task

variable {task : Task}

/-- Whether a task was created, and nothing was done to it but by mutations. -/
def Made (task : Task) : Prop :=
  ∃ name table config store failureStatus mutations,
    task = (create name table config store failureStatus).mutated mutations

theorem Honest.addAction (honest : task.Honest) (action : Action) :
    (task.addAction action).Honest := by
  intro going
  have going : task.progress.isTerminal = false := going
  have judged := honest going
  refine ⟨⟨fun failed => judged.failed.mp failed |>.elim fun bad failed => ?_, fun ⟨bad, failed⟩ => ?_⟩,
    ⟨fun succeeded => ?_, fun ⟨_, all⟩ => ?_⟩⟩
  · exact absurd failed (honest.not_failed going)
  · rw [actionProgress_addAction] at failed
    split at failed
    · cases failed
    · exact absurd failed (honest.not_failed going)
  · have succeeded : task.progress = .succeeded := succeeded
    rw [succeeded] at going
    cases going
  · have new := all action .new (by rw [actionProgress_addAction, if_pos rfl])
    cases new

theorem Honest.mutate (honest : task.Honest) (mutation : Mutation) :
    (task.mutate mutation).Honest := by
  cases mutation with
  | add action => exact honest.addAction action
  | call call =>
    intro going
    have going : (task.call call).task.progress.isTerminal = false := going
    refine (honest ?_).after_call call
    rcases task.progress_call call with same | ⟨open_, _⟩
    · exact same ▸ going
    · exact open_

/-- What was made from outside is kept well, and tells its progress honestly until its end. -/
theorem Made.sound (made : task.Made) : task.WellKept ∧ task.Honest := by
  obtain ⟨name, table, config, store, failureStatus, mutations, rfl⟩ := made
  induction mutations using List.reverseRecOn with
  | nil =>
    have kept : (create name table config store failureStatus).WellKept :=
      wellKept_create name table config store failureStatus
    have fresh : (create name table config store failureStatus).Fresh := fresh_create ..
    exact ⟨kept, fun _ => fresh.judged⟩
  | append_singleton before mutation hyp =>
    obtain ⟨kept, honest⟩ := hyp
    rw [mutated_append]
    refine ⟨?_, honest.mutate mutation⟩
    cases mutation with
    | add action => exact wellKept_addAction kept action
    | call call => exact WellKept.after_call kept call

end Task

/-! ### Two orders of one run -/

/-- Whether an act is the refusal of an action. -/
def Act.isRefusal : Act → Bool
  | .refused .. => true
  | _ => false

/-- Whether a scheduler that verifies itself and the tasks it is to run share a store in memory, while
different tasks have different partitions and the engines have fixed outcomes. -/
structure Scheduler.Shares {σ : Type} (scheduler : Scheduler) (tasks : List Task)
    (listed : List Nat) (engines : Engines σ) (outcome : Nat → Action → Execution)
    (store : σ → FaultyStore) (state : σ) : Prop where
  resting : scheduler.AtRest
  recorded : scheduler.store.isSome = true
  itself : scheduler.verifiesItself = true
  made : ∀ task ∈ tasks, task.Made
  apart : Task.KeysApart tasks listed
  keep : engines.Keep store
  sound : ∀ sort, (store state).fault sort = none
  fixed : engines.Fixed outcome

namespace Run

variable {σ : Type} {engines : Engines σ}

/-- **The order in which actions complete makes no difference to the store**, as long as the pools refuse
the same actions. Only the final verification brings a division of the partitions, and what a task has
been given of one before is of its own partitions. -/
theorem confluent {store : σ → FaultyStore} {scheduler : Scheduler} {tasks : List Task}
    {listed : List Nat} {state : σ} {run first second : Run σ} {moves moves' : List Move}
    {outcome : Nat → Action → Execution}
    (shares : scheduler.Shares tasks listed engines outcome store state)
    (divides : ∀ task ∈ tasks, task.DividesOwn)
    (plain : ∀ number action, action.engine ≠ .validation →
      (outcome number action).validation = none)
    (launched : scheduler.launch tasks listed state = .started run)
    (reached : run.steps engines moves = some first) (past : first.isOver = true)
    (reached' : run.steps engines moves' = some second) (past' : second.isOver = true)
    (refusals : ∀ number action, .refused number action ∈ run.trace engines moves ↔
      .refused number action ∈ run.trace engines moves') :
    (store first.state).memory.Alike (store second.state).memory := by
  obtain ⟨ref, known⟩ := Option.isSome_iff_exists.mp shares.recorded
  have begins := shares.resting.begins launched
  have kept : ∀ task ∈ tasks, task.WellKept :=
    fun task member => (shares.made task member).sound.1
  have honest : ∀ task ∈ tasks, task.Honest :=
    fun task member => (shares.made task member).sound.2
  have posted := posted_begins begins known shares.itself kept honest outcome
  obtain ⟨posts, one⟩ := posted.steps plain shares.fixed reached
  obtain ⟨posts', other⟩ := posted.steps plain shares.fixed reached'
  have own : ∀ number initial, run.ledger.custody.tasks number = some initial →
      initial.DividesOwn := by
    intro number initial began
    rw [Campaign.custody_begins begins] at began
    obtain ⟨task, among, rfl⟩ := Option.map_eq_some_iff.mp began
    exact divides task (List.mem_of_getElem? among)
  have sound : ∀ sort, (store run.state).fault sort = none := begins.world ▸ shares.sound
  rw [(steps_wrote reached).made.memory shares.keep sound,
    (steps_wrote reached').made.memory shares.keep sound]
  exact Memory.alike_foldl_after _ (one.onRow_eq other past past' refusals)
    (one.onPartition_eq other past past' refusals shares.apart own)

/-- A scheduler with two workers for the sources, and one place for jobs that wait for validation. -/
def crowdedScheduler : Scheduler :=
  .create (some 0) true true true fun engine =>
    match engine with
    | .source => ⟨2, 2⟩
    | _ => ⟨1, 1⟩

/-- A task that only verifies, and two tasks of a table that count before. The second one may have been
given a division. -/
def sharedTasks (attached : Option Validation) : List Task :=
  [(Task.create "first" ⟨"d", "a", [], []⟩ ⟨none⟩ (some 0) .succeeded).mutated
      [.add .finalVerification],
    (Task.create "second" ⟨"d", "b", ["p"], [⟨["x"]⟩, ⟨["y"]⟩]⟩ ⟨none⟩ (some 0) .succeeded).mutated
      ([.add .sourceValidate, .add .destinationValidate, .add .finalVerification] ++
        attached.toList.map fun division => .call (.divide division)),
    (Task.create "third" ⟨"d", "b", ["p"], [⟨["z"]⟩]⟩ ⟨none⟩ (some 0) .failed).mutated
      [.add .sourceValidate, .add .finalVerification]]

/-- Every action succeeds. Those of the second task may bring a division. -/
def dividedOutcome (returned : Action → Option Validation) (number : Nat) (action : Action) :
    Execution :=
  { Execution.succeed with validation := if number = 1 then returned action else none }

/-- Engines with these outcomes, beside a store in memory. -/
def dividingEngines (returned : Action → Option Validation) : Engines FaultyStore where
  backend := FaultyStore.backend
  call _ number _ action stores := (.returned (dividedOutcome returned number action), stores)

/-- The store with the two tables. -/
def sharedStore : FaultyStore :=
  ⟨((Memory.empty 1).put "d" "a" (.register ⟨"d", "a", [], []⟩ ⟨none⟩)).put "d" "b"
    (.register ⟨"d", "b", ["p"], [⟨["x"]⟩, ⟨["y"]⟩, ⟨["z"]⟩]⟩ ⟨none⟩), fun _ => none⟩

/-- All counts are waited for, while the first task takes the place in front of the validation. -/
def crowdingMoves : List Move :=
  List.replicate 25 .advance ++ [.take .source, .take .source, .take .destination]

/-- The first task is verified, and the run ends. -/
def settlingMoves : List Move :=
  .take .validation :: List.replicate 9 (.work .validation 0) ++ List.replicate 13 .advance

/-- The second task is counted first, at the source and then at the destination. -/
def secondFirst : List Move :=
  crowdingMoves ++ List.replicate 8 (.work .source 0) ++ List.replicate 8 (.work .destination 0) ++
    List.replicate 19 .advance ++ List.replicate 8 (.work .source 0) ++
    List.replicate 18 .advance ++ settlingMoves

/-- The third task is counted first, then the second one at the destination and at the source. -/
def thirdFirst : List Move :=
  crowdingMoves ++ List.replicate 8 (.work .source 1) ++ List.replicate 19 .advance ++
    List.replicate 8 (.work .destination 0) ++ List.replicate 8 (.work .source 0) ++
    List.replicate 18 .advance ++ settlingMoves

theorem shares_crowded {attached : Option Validation}
    (apart : Task.KeysApart (sharedTasks attached) [0, 1, 2])
    (returned : Action → Option Validation) :
    crowdedScheduler.Shares (sharedTasks attached) [0, 1, 2] (dividingEngines returned)
      (dividedOutcome returned) id sharedStore where
  resting := Scheduler.atRest_create (some 0) true true true _
  recorded := rfl
  itself := rfl
  made := by
    simp only [sharedTasks, List.forall_mem_cons]
    exact ⟨⟨_, _, _, _, _, _, rfl⟩, ⟨_, _, _, _, _, _, rfl⟩, ⟨_, _, _, _, _, _, rfl⟩,
      List.forall_mem_nil _⟩
  apart := apart
  keep := ⟨fun _ _ _ _ => ⟨rfl, rfl⟩, fun _ _ _ => ⟨rfl, rfl⟩, fun _ _ _ _ _ => rfl⟩
  sound _ := rfl
  fixed _ _ _ _ _ := rfl

/-- Two orders of one run of the sample tasks, with the same refusals. -/
structure Swapped (attached : Option Validation) (returned : Action → Option Validation)
    (run first second : Run FaultyStore) : Prop where
  launched : crowdedScheduler.launch (sharedTasks attached) [0, 1, 2] sharedStore = .started run
  reached : run.steps (dividingEngines returned) secondFirst = some first
  past : first.isOver = true
  reached' : run.steps (dividingEngines returned) thirdFirst = some second
  past' : second.isOver = true
  refusals : ∀ number action,
    .refused number action ∈ run.trace (dividingEngines returned) secondFirst ↔
      .refused number action ∈ run.trace (dividingEngines returned) thirdFirst

/-- Whether both orders come to an end and are refused the same, and the memories pass a test then. -/
def swaps (attached : Option Validation) (returned : Action → Option Validation)
    (passes : Memory → Memory → Bool) : Bool :=
  match crowdedScheduler.launch (sharedTasks attached) [0, 1, 2] sharedStore with
  | .started run =>
    (run.steps (dividingEngines returned) secondFirst).any fun first =>
      (run.steps (dividingEngines returned) thirdFirst).any fun second =>
        decide (first.isOver = true ∧ second.isOver = true ∧
          (run.trace (dividingEngines returned) secondFirst).filter Act.isRefusal =
            ((run.trace (dividingEngines returned) thirdFirst).filter Act.isRefusal).reverse ∧
          passes first.state.memory second.state.memory = true)
  | .refused .. => false

theorem swapped_of_swaps {attached : Option Validation} {returned : Action → Option Validation}
    {passes : Memory → Memory → Bool} (goes : swaps attached returned passes = true) :
    ∃ run first second, Swapped attached returned run first second ∧
      passes first.state.memory second.state.memory = true := by
  unfold swaps at goes
  split at goes
  · rename_i run launched
    obtain ⟨first, reached, goes⟩ := (Option.any_eq_true _ _).mp goes
    obtain ⟨second, reached', goes⟩ := (Option.any_eq_true _ _).mp goes
    obtain ⟨past, past', same, passing⟩ := of_decide_eq_true goes
    refine ⟨run, first, second, ⟨launched, reached, past, reached', past', fun number action => ?_⟩,
      passing⟩
    have refusal : ∀ {acts : List Act}, .refused number action ∈ acts ↔
        .refused number action ∈ acts.filter Act.isRefusal :=
      fun {_} => ⟨fun member => List.mem_filter.mpr ⟨member, rfl⟩, List.mem_of_mem_filter⟩
    rw [refusal, same, List.mem_reverse, ← refusal]
  · cases goes

/-- Two orders of a run in which no division goes astray. -/
theorem confluent_swapped : ∃ run first second, Swapped none (fun _ => none) run first second ∧
    (id first.state).memory.Alike (id second.state).memory := by
  have goes : swaps none (fun _ => none) (fun _ _ => true) = true := by decide +kernel
  obtain ⟨run, first, second, swapped, _⟩ := swapped_of_swaps goes
  refine ⟨run, first, second, swapped, ?_⟩
  have divides : ∀ task ∈ sharedTasks none, task.DividesOwn := by
    have undivided : ∀ task ∈ sharedTasks none, task.validation = none := by decide +kernel
    intro task member validation divided
    rw [undivided task member] at divided
    cases divided
  have plain : ∀ number action, action.engine ≠ .validation →
      (dividedOutcome (fun _ => none) number action).validation = none := by
    intro number action _
    exact ite_self none
  exact confluent (shares_crowded (by decide +kernel) fun _ => none) divides plain swapped.launched
    swapped.reached swapped.past swapped.reached' swapped.past' swapped.refusals

/-- A division with a partition that belongs to the third task. -/
def strayDivision : Validation := ⟨[⟨["x"]⟩, ⟨["z"]⟩], []⟩

/-- The count at the source brings a division with a partition of the third task. -/
def strayCount (action : Action) : Option Validation :=
  if action = .sourceValidate then some strayDivision else none

/-- Each of the two counts brings a division of its own. -/
def rivalCounts (action : Action) : Option Validation :=
  if action = .sourceValidate then some ⟨[⟨["x"]⟩], []⟩ else some ⟨[⟨["y"]⟩], []⟩

/-- Whether two memories tell different things about a partition of the second table. -/
def differs (first second : Memory) : Bool :=
  ["x", "y", "z"].any fun key =>
    ((first.tables.get? "d.b").map fun entry => entry.partitions.get? key) !=
      (second.tables.get? "d.b").map fun entry => entry.partitions.get? key

theorem not_alike_of_differs {first second : Memory} (differ : differs first second = true) :
    ¬ first.Alike second := by
  intro alike
  obtain ⟨key, _, different⟩ := List.any_eq_true.mp differ
  refine bne_iff_ne.mp different ?_
  have same := alike "d.b"
  generalize first.tables.get? "d.b" = entry, second.tables.get? "d.b" = entry' at same
  cases same with
  | none => rfl
  | some same => exact congrArg some (same.partitions key)

/-- Whether two orders of a run of the sample tasks leave different memories behind. -/
def Diverges (attached : Option Validation) (returned : Action → Option Validation) : Prop :=
  crowdedScheduler.Shares (sharedTasks attached) [0, 1, 2] (dividingEngines returned)
      (dividedOutcome returned) id sharedStore ∧
    ∃ run first second, Swapped attached returned run first second ∧
      ¬ first.state.memory.Alike second.state.memory

theorem diverges_of_swaps {attached : Option Validation} {returned : Action → Option Validation}
    (apart : Task.KeysApart (sharedTasks attached) [0, 1, 2])
    (goes : swaps attached returned differs = true) : Diverges attached returned := by
  obtain ⟨run, first, second, swapped, differ⟩ := swapped_of_swaps goes
  exact ⟨shares_crowded apart returned, run, first, second, swapped, not_alike_of_differs differ⟩

/-- **No division may go astray.** With one of another task, returned by a count or given to a task
before the run, or with one from each of two counts, the store depends on the order in which actions
complete. -/
theorem order_matters : Diverges none strayCount ∧ Diverges (some strayDivision) (fun _ => none) ∧
    Diverges none rivalCounts :=
  ⟨diverges_of_swaps (by decide +kernel) (by decide +kernel),
    diverges_of_swaps (by decide +kernel) (by decide +kernel),
    diverges_of_swaps (by decide +kernel) (by decide +kernel)⟩

end Run

end TableMigration
