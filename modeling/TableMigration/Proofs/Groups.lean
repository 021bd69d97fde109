/-
**Groups of tasks.**

* `Keyed.Sorted` — keys in order, as every `Keyed.put` leaves them: then a value that is put takes
  the place of the one under its key, and of no other.
* `Grouping.Has` — every listed task belongs to a group (`Grouping.has_ofTasks`).
* `Grouping.Lists` — a group lists the tasks of its table, as often and in the order in which they
  were listed, and takes database and name of the table from the last of them
  (`Grouping.lists_ofTasks`).
-/

import Mathlib.Data.List.Induction
import TableMigration.Scheduler

namespace TableMigration

/-! ### Ordered keys -/

namespace Keyed

variable {α : Type} {entries : Keyed α} {key : String} {value : α} {entry : String × α}

theorem eq_or_mem_of_mem_put (member : entry ∈ entries.put key value) :
    entry = (key, value) ∨ entry ∈ entries := by
  induction entries with
  | nil => exact .inl (List.mem_singleton.mp member)
  | cons first rest hyp =>
    obtain ⟨name, old⟩ := first
    unfold put at member
    split at member
    · rcases List.mem_cons.mp member with same | behind
      · exact .inl same
      · exact .inr (List.mem_cons_of_mem _ behind)
    · split at member
      · exact (List.mem_cons.mp member)
      · rcases List.mem_cons.mp member with same | behind
        · exact .inr (same ▸ List.mem_cons_self)
        · exact (hyp behind).imp id (List.mem_cons_of_mem _)

theorem mem_put_self (entries : Keyed α) (key : String) (value : α) :
    (key, value) ∈ entries.put key value := by
  induction entries with
  | nil => exact List.mem_singleton.mpr rfl
  | cons first rest hyp =>
    obtain ⟨name, old⟩ := first
    unfold put
    split
    · exact List.mem_cons_self
    · split
      · exact List.mem_cons_self
      · exact List.mem_cons_of_mem _ hyp

/-- Only the value that is found under the key is replaced. -/
theorem mem_put_or (key : String) (value : α) (member : entry ∈ entries) :
    entry ∈ entries.put key value ∨ entries.get? key = some entry.2 := by
  induction entries with
  | nil => cases member
  | cons first rest hyp =>
    obtain ⟨name, old⟩ := first
    unfold put get?
    by_cases same : name = key
    · rw [if_pos same, if_pos same]
      rcases List.mem_cons.mp member with rfl | behind
      · exact .inr rfl
      · exact .inl (List.mem_cons_of_mem _ behind)
    · rw [if_neg same, if_neg same]
      split
      · exact .inl (List.mem_cons_of_mem _ member)
      · rcases List.mem_cons.mp member with rfl | behind
        · exact .inl List.mem_cons_self
        · exact (hyp behind).imp (List.mem_cons_of_mem _) id

theorem mem_of_get? (found : entries.get? key = some value) : (key, value) ∈ entries := by
  induction entries with
  | nil => cases found
  | cons first rest hyp =>
    obtain ⟨name, old⟩ := first
    unfold get? at found
    split at found
    · rename_i same
      cases found
      exact same ▸ List.mem_cons_self
    · exact List.mem_cons_of_mem _ (hyp found)

/-- Whether the keys are in order, so that none of them is there twice. -/
def Sorted (entries : Keyed α) : Prop :=
  entries.Pairwise fun first second => first.1 < second.1

theorem Sorted.nodup (sorted : entries.Sorted) : (entries.map Prod.fst).Nodup := by
  refine List.pairwise_map.mpr (sorted.imp fun below same => ?_)
  exact String.lt_irrefl _ (same ▸ below)

theorem Sorted.put (sorted : entries.Sorted) (key : String) (value : α) :
    (entries.put key value).Sorted := by
  induction entries with
  | nil => exact List.pairwise_singleton _ _
  | cons first rest hyp =>
    obtain ⟨name, old⟩ := first
    obtain ⟨below, ordered⟩ := List.pairwise_cons.mp sorted
    unfold Keyed.put
    by_cases same : name = key
    · rw [if_pos same]
      exact List.pairwise_cons.mpr ⟨same ▸ below, ordered⟩
    rw [if_neg same]
    by_cases under : key < name
    · rw [if_pos under]
      refine List.pairwise_cons.mpr ⟨fun other member => ?_, sorted⟩
      rcases List.mem_cons.mp member with rfl | behind
      · exact under
      · exact String.lt_trans under (below other behind)
    · rw [if_neg under]
      refine List.pairwise_cons.mpr ⟨fun other member => ?_, hyp ordered⟩
      rcases eq_or_mem_of_mem_put member with rfl | old
      · exact Std.lt_of_le_of_ne (String.not_lt.mp under) same
      · exact below other old

theorem Sorted.get?_of_mem (sorted : entries.Sorted) (member : (key, value) ∈ entries) :
    entries.get? key = some value := by
  induction entries with
  | nil => cases member
  | cons first rest hyp =>
    obtain ⟨name, inner⟩ := first
    obtain ⟨below, ordered⟩ := List.pairwise_cons.mp sorted
    unfold get?
    rcases List.mem_cons.mp member with same | behind
    · cases same
      exact if_pos rfl
    · have apart : name ≠ key := by
        rintro rfl
        exact String.lt_irrefl _ (below (name, value) behind)
      rw [if_neg apart]
      exact hyp ordered behind

/-- A value that is put takes the place of the one under its key. -/
theorem Sorted.mem_put (sorted : entries.Sorted) :
    entry ∈ entries.put key value ↔ entry = (key, value) ∨ entry ∈ entries ∧ entry.1 ≠ key := by
  obtain ⟨name, inner⟩ := entry
  constructor
  · intro member
    rcases eq_or_mem_of_mem_put member with same | old
    · exact .inl same
    · by_cases same : name = key
      · subst same
        have found := (sorted.put name value).get?_of_mem member
        rw [get?_put_self] at found
        exact .inl (congrArg _ (Option.some.inj found).symm)
      · exact .inr ⟨old, same⟩
  · rintro (same | ⟨old, apart⟩)
    · cases same
      exact mem_put_self entries key value
    · have found : (entries.put key value).get? name = some inner :=
        (get?_put_of_ne entries value (Ne.symm apart)).trans (sorted.get?_of_mem old)
      exact mem_of_get? found

end Keyed

/-! ### Groups -/

namespace Grouping

variable {tables : Grouping} {tasks : List Task} {listed : List Nat} {number : Nat}

/-- Whether a task belongs to a group. -/
def Has (tables : Grouping) (number : Nat) : Prop :=
  ∃ entry ∈ tables, number ∈ entry.2.tasks

theorem has_add (has : tables.Has number) (other : Nat) (table : Table) :
    (tables.add other table).Has number := by
  obtain ⟨entry, member, among⟩ := has
  unfold add
  dsimp only
  rcases Keyed.mem_put_or table.fullName _ member with kept | found
  · exact ⟨entry, kept, among⟩
  · refine ⟨_, Keyed.mem_put_self _ _ _, List.mem_append_left _ ?_⟩
    rw [found]
    exact among

theorem has_add_self (tables : Grouping) (number : Nat) (table : Table) :
    (tables.add number table).Has number :=
  ⟨_, Keyed.mem_put_self _ _ _, List.mem_append_right _ (List.mem_singleton.mpr rfl)⟩

/-- Add a listed task to the group of its table, if there is such a task. -/
def addListed (tasks : List Task) (tables : Grouping) (number : Nat) : Grouping :=
  match tasks[number]? with
  | some task => tables.add number task.table
  | none => tables

theorem ofTasks_eq (tasks : List Task) (listed : List Nat) :
    ofTasks tasks listed = listed.foldl (addListed tasks) [] :=
  rfl

theorem has_addListed (has : tables.Has number) (other : Nat) :
    (tables.addListed tasks other).Has number := by
  unfold addListed
  split
  · exact has_add has _ _
  · exact has

/-- **Every listed task belongs to a group.** -/
theorem has_ofTasks {task : Task} (member : number ∈ listed)
    (found : tasks[number]? = some task) : (ofTasks tasks listed).Has number := by
  have keeps : ∀ (others : List Nat) (tables : Grouping), tables.Has number →
      (others.foldl (addListed tasks) tables).Has number := by
    intro others
    induction others with
    | nil => exact fun _ has => has
    | cons other rest hyp => exact fun tables has => hyp _ (has_addListed has other)
  obtain ⟨before, after, rfl⟩ := List.append_of_mem member
  rw [ofTasks_eq, List.foldl_append, List.foldl_cons]
  refine keeps after _ ?_
  unfold addListed
  rw [found]
  exact has_add_self _ _ _

/-- No group is finished in the beginning. -/
theorem unfinished_ofTasks (tasks : List Task) (listed : List Nat) :
    ∀ entry ∈ ofTasks tasks listed, entry.2.finished = false := by
  have keeps : ∀ (others : List Nat) (tables : Grouping),
      (∀ entry ∈ tables, entry.2.finished = false) →
      ∀ entry ∈ others.foldl (addListed tasks) tables, entry.2.finished = false := by
    intro others
    induction others with
    | nil => exact fun _ all => all
    | cons other rest hyp =>
      intro tables all
      refine hyp _ fun entry member => ?_
      unfold addListed at member
      split at member
      · rcases Keyed.eq_or_mem_of_mem_put member with rfl | old
        · rfl
        · exact all entry old
      · exact all entry member
  exact keeps listed [] (List.forall_mem_nil _)

end Grouping

/-! ### What a group lists -/

/-- The listed tasks whose table has a full name, as often as they are listed. -/
def Task.listedOf (tasks : List Task) (listed : List Nat) (name : String) : List Nat :=
  listed.filter fun number => (tasks[number]?).any fun task => task.table.fullName == name

namespace Task

variable {tasks : List Task} {listed : List Nat} {name : String} {number : Nat} {task : Task}

theorem mem_listedOf : number ∈ listedOf tasks listed name ↔
    number ∈ listed ∧ ∃ task, tasks[number]? = some task ∧ task.table.fullName = name := by
  unfold listedOf
  rw [List.mem_filter, Option.any_eq_true]
  simp only [beq_iff_eq]

/-- One more listed task is one more of its table. -/
theorem listedOf_append_self (found : tasks[number]? = some task) :
    listedOf tasks (listed ++ [number]) task.table.fullName =
      listedOf tasks listed task.table.fullName ++ [number] := by
  unfold listedOf
  rw [List.filter_append, List.filter_cons_of_pos (by rw [found]; exact beq_self_eq_true _)]
  rfl

theorem listedOf_append_of_ne
    (apart : ∀ task, tasks[number]? = some task → task.table.fullName ≠ name) :
    listedOf tasks (listed ++ [number]) name = listedOf tasks listed name := by
  have other : [number].filter
      (fun number => (tasks[number]?).any fun task => task.table.fullName == name) = [] := by
    refine List.filter_eq_nil_iff.mpr fun other member same => ?_
    rw [List.mem_singleton.mp member] at same
    obtain ⟨task, found, equal⟩ := (Option.any_eq_true _ _).mp same
    exact apart task found (beq_iff_eq.mp equal)
  unfold listedOf
  rw [List.filter_append, other, List.append_nil]

end Task

namespace Grouping

variable {tables : Grouping} {tasks : List Task} {listed : List Nat} {number : Nat}

/-- Whether a group under a full name lists the tasks of this table. -/
structure ListsOf (tasks : List Task) (listed : List Nat) (name : String) (group : TableGroup) :
    Prop where
  fullName : group.fullName = name
  among : group.tasks = Task.listedOf tasks listed name
  last : ∃ number task, group.tasks.getLast? = some number ∧ tasks[number]? = some task ∧
    group.database = task.table.database ∧ group.name = task.table.name

/-- Whether there is one group for every table of the listed tasks, and each lists its tasks. -/
structure Lists (tables : Grouping) (tasks : List Task) (listed : List Nat) : Prop where
  sorted : tables.Sorted
  groups : ∀ entry ∈ tables, ListsOf tasks listed entry.1 entry.2
  all : ∀ number ∈ listed, ∀ task, tasks[number]? = some task →
    ∃ group, (task.table.fullName, group) ∈ tables

theorem Lists.tasks_get? (lists : tables.Lists tasks listed) (name : String) :
    ((tables.get? name).map TableGroup.tasks).getD [] = Task.listedOf tasks listed name := by
  cases found : tables.get? name with
  | some group => exact (lists.groups _ (Keyed.mem_of_get? found)).among
  | none =>
    refine (List.filter_eq_nil_iff.mpr fun number member named => ?_).symm
    obtain ⟨task, known, same⟩ := (Option.any_eq_true _ _).mp named
    obtain ⟨group, present⟩ := lists.all number member task known
    rw [beq_iff_eq.mp same] at present
    rw [lists.sorted.get?_of_mem present] at found
    cases found

theorem Lists.addListed (lists : tables.Lists tasks listed) (number : Nat) :
    (tables.addListed tasks number).Lists tasks (listed ++ [number]) := by
  unfold Grouping.addListed
  cases found : tasks[number]? with
  | none =>
    have same : ∀ name, Task.listedOf tasks (listed ++ [number]) name =
        Task.listedOf tasks listed name :=
      fun name => Task.listedOf_append_of_ne fun task known => by
        rw [found] at known
        cases known
    refine ⟨lists.sorted, fun entry member => ?_, fun other member task known => ?_⟩
    · obtain ⟨fullName, among, last⟩ := lists.groups entry member
      exact ⟨fullName, among.trans (same _).symm, last⟩
    · rcases List.mem_append.mp member with old | new
      · exact lists.all other old task known
      · rw [List.mem_singleton.mp new, found] at known
        cases known
  | some task =>
    refine ⟨lists.sorted.put _ _, fun entry member => ?_, fun other member task' known => ?_⟩
    · rcases lists.sorted.mem_put.mp member with rfl | ⟨old, apart⟩
      · refine ⟨rfl, ?_, number, task, ?_, found, rfl, rfl⟩
        · exact (congrArg (· ++ [number]) (lists.tasks_get? _)).trans
            (Task.listedOf_append_self found).symm
        · exact List.getLast?_concat
      · obtain ⟨fullName, among, last⟩ := lists.groups entry old
        refine ⟨fullName, among.trans (Task.listedOf_append_of_ne fun task' known => ?_).symm, last⟩
        rw [found] at known
        cases known
        exact Ne.symm apart
    · by_cases same : task'.table.fullName = task.table.fullName
      · rw [same]
        exact ⟨_, Keyed.mem_put_self _ _ _⟩
      · rcases List.mem_append.mp member with old | new
        · obtain ⟨group, present⟩ := lists.all other old task' known
          exact ⟨group, lists.sorted.mem_put.mpr (.inr ⟨present, same⟩)⟩
        · rw [List.mem_singleton.mp new, found] at known
          cases known
          exact absurd rfl same

/-- **The groups of a run list its tasks by their tables.** -/
theorem lists_ofTasks (tasks : List Task) (listed : List Nat) :
    (ofTasks tasks listed).Lists tasks listed := by
  rw [ofTasks_eq]
  induction listed using List.reverseRecOn with
  | nil => exact ⟨.nil, List.forall_mem_nil _, List.forall_mem_nil _⟩
  | append_singleton listed number hyp =>
    rw [List.foldl_append]
    exact hyp.addListed number

/-- Finishing a group leaves what it lists. -/
theorem Lists.finish (lists : tables.Lists tasks listed) {key : String} {group : TableGroup}
    (found : tables.get? key = some group) :
    Lists (tables.put key { group with finished := true }) tasks listed where
  sorted := lists.sorted.put _ _
  groups entry member := by
    rcases lists.sorted.mem_put.mp member with rfl | ⟨old, _⟩
    · obtain ⟨fullName, among, last⟩ := lists.groups _ (Keyed.mem_of_get? found)
      exact ⟨fullName, among, last⟩
    · exact lists.groups entry old
  all number member task known := by
    obtain ⟨old, present⟩ := lists.all number member task known
    by_cases same : task.table.fullName = key
    · rw [same]
      exact ⟨_, Keyed.mem_put_self _ _ _⟩
    · exact ⟨old, lists.sorted.mem_put.mpr (.inr ⟨present, same⟩)⟩

end Grouping

end TableMigration
