/-
**Which counts a task has.**

* `Act.lastCounts` — the counts that an action returned when it was last executed with any.
* `Custody.Counted` — the counts that a task has recorded are the ones that its actions returned
  last, and where they returned none, the ones that the task had in the beginning. Counts that were
  returned and are still to be kept are counted as well.
* `Custody.Step.counted` — every step keeps to it.
-/

import TableMigration.Proofs.History

namespace TableMigration

/-! ### The last counts -/

namespace Act

/-- The counts that an act brings for an action. -/
def countsOf (number : Nat) (action : Action) : Act → Option RowCounts
  | .executed other act execution =>
    if other = number ∧ act = action then execution.counts else none
  | _ => none

/-- The counts that an action returned last, if it returned any. -/
def lastCounts (number : Nat) (action : Action) (acts : List Act) : Option RowCounts :=
  (acts.filterMap (countsOf number action)).getLast?

variable {number other : Nat} {action act : Action} {acts new : List Act}

theorem lastCounts_append_of_none (silent : ∀ act ∈ new, countsOf number action act = none) :
    lastCounts number action (acts ++ new) = lastCounts number action acts := by
  unfold lastCounts
  rw [List.filterMap_append, List.filterMap_eq_nil_iff.mpr silent, List.append_nil]

/-- The counts of the last execution, or else the last ones before. -/
theorem lastCounts_executed (number : Nat) (action : Action) (execution : Execution)
    (acts : List Act) :
    lastCounts number action (acts ++ [.executed number action execution]) =
      execution.counts.or (lastCounts number action acts) := by
  have brings : countsOf number action (.executed number action execution) = execution.counts :=
    if_pos ⟨rfl, rfl⟩
  unfold lastCounts
  rw [List.filterMap_append, List.filterMap_cons, brings]
  cases execution.counts with
  | none =>
    rw [List.filterMap_nil, List.append_nil]
    rfl
  | some counts =>
    rw [List.filterMap_nil, List.getLast?_concat]
    rfl

end Act

/-! ### Recorded counts -/

namespace Custody

variable {custody next : Custody} {answers : Nat → Task → Action → Execution → Prop}
  {start : Nat → Option Task} {acts new : List Act} {others : Multiset Item} {number : Nat}
  {action : Action}

/-- The counts that were returned for an action and are still to be kept. -/
def Owes (custody : Custody) (number : Nat) (action : Action) (owed : Option RowCounts) : Prop :=
  (∃ execution, ⟨number, action, .counting execution⟩ ∈ custody.items ∧ owed = execution.counts) ∨
    (∀ execution, ⟨number, action, .counting execution⟩ ∉ custody.items) ∧ owed = none

/-- Whether the counts of an action are the ones that were returned last. -/
def CountedOf (start : Nat → Option Task) (acts : List Act) (custody : Custody) (number : Nat)
    (action : Action) : Prop :=
  ∀ initial task owed, start number = some initial → custody.tasks number = some task →
    custody.Owes number action owed →
    owed.or (task.rowCounts action task.table.fullName) =
      (Act.lastCounts number action acts).or (initial.rowCounts action initial.table.fullName)

/-- Whether all recorded counts are the ones that were returned last. Only actions on source and
destination engines record any. -/
def Counted (start : Nat → Option Task) (acts : List Act) (custody : Custody) : Prop :=
  ∀ number action, action.engine ≠ .validation → custody.CountedOf start acts number action

/-- What a step does not touch is counted as before. -/
theorem CountedOf.still (counted : custody.CountedOf start acts number action)
    (step : custody.Step answers new next) (sound : custody.Sound)
    (counts : ∀ task after, custody.tasks number = some task → next.tasks number = some after →
      ∀ table, after.rowCounts action table = task.rowCounts action table)
    (owed : ∀ execution, ⟨number, action, .counting execution⟩ ∈ next.items ↔
      ⟨number, action, .counting execution⟩ ∈ custody.items)
    (silent : ∀ act ∈ new, Act.countsOf number action act = none) :
    next.CountedOf start (acts ++ new) number action := by
  intro initial after owed' began found owes
  obtain ⟨task, found', on⟩ := step.origin sound found
  rw [Act.lastCounts_append_of_none silent, on.kind.table, counts task after found' found]
  refine counted initial task owed' began found' ?_
  simpa only [Owes, owed] using owes

theorem countsOf_of_ne {other : Nat} {act : Action} (apart : (other, act) ≠ (number, action))
    (execution : Execution) :
    Act.countsOf number action (.executed other act execution) = none :=
  if_neg fun same => apart (Prod.ext same.1 same.2)

/-- An action that goes on without counts leaves the owed ones as they were. -/
theorem counting_of_exchange {other : Nat} {act : Action} {station later : Station}
    (held : custody.items = ⟨other, act, station⟩ ::ₘ others)
    (after : next.items = ⟨other, act, later⟩ ::ₘ others)
    (apart : (other, act) ≠ (number, action) ∨
      ∀ execution, station ≠ .counting execution ∧ later ≠ .counting execution)
    (execution : Execution) : ⟨number, action, .counting execution⟩ ∈ next.items ↔
      ⟨number, action, .counting execution⟩ ∈ custody.items := by
  have differs : ∀ station', (station' = station ∨ station' = later) →
      (⟨number, action, .counting execution⟩ : Item) ≠ ⟨other, act, station'⟩ := by
    intro station' which same
    rcases apart with apart | apart
    · exact apart (congrArg Item.key same).symm
    · have equal := congrArg Item.station same
      rcases which with rfl | rfl
      · exact (apart execution).1 equal.symm
      · exact (apart execution).2 equal.symm
  rw [held, after, Multiset.mem_cons, Multiset.mem_cons]
  simp only [differs station (.inl rfl), differs later (.inr rfl), false_or]

theorem rowCounts_setTask {other : Nat} {old changed : Task}
    (found : custody.tasks other = some old)
    (same : other = number → ∀ table, changed.rowCounts action table = old.rowCounts action table)
    (task after : Task) (before : custody.tasks number = some task)
    (later : (custody.setTask other changed).tasks number = some after) (table : String) :
    after.rowCounts action table = task.rowCounts action table := by
  by_cases equal : number = other
  · subst equal
    rw [show (custody.setTask number changed).tasks number = some changed from if_pos rfl] at later
    rw [found] at before
    cases before
    cases later
    exact same rfl table
  · rw [show (custody.setTask other changed).tasks number = _ from if_neg equal, before] at later
    cases later
    rfl

theorem rowCounts_same (task after : Task) (before : custody.tasks number = some task)
    (later : custody.tasks number = some after) (table : String) :
    after.rowCounts action table = task.rowCounts action table := by
  rw [before] at later
  cases later
  rfl

/-- An execution is owed at once. -/
theorem CountedOf.execute {execution : Execution}
    (counted : custody.CountedOf start acts number action) (sound : custody.Sound)
    (held : custody.items = ⟨number, action, .queued⟩ ::ₘ others) :
    CountedOf start (acts ++ [.executed number action execution])
      { custody with items := ⟨number, action, .counting execution⟩ ::ₘ others } number action := by
  intro initial task' owed began found' owes
  have before : custody.Owes number action none := by
    have there : ⟨number, action, .queued⟩ ∈ custody.items := held ▸ Multiset.mem_cons_self _ _
    refine .inr ⟨fun other member => ?_, rfl⟩
    cases congrArg Item.station (sound.unique member there rfl)
  have counts := counted initial task' none began found' before
  rcases owes with ⟨other, member, rfl⟩ | ⟨absent, _⟩
  · rcases Multiset.mem_cons.mp member with same | behind
    · cases same
      rw [Act.lastCounts_executed, Option.or_assoc, ← counts]
      rfl
    · exact (sound.apart held behind rfl).elim
  · exact absurd (Multiset.mem_cons_self _ _) (absent execution)

/-- What is owed is paid when it is kept. -/
theorem CountedOf.keep {execution : Execution} {task : Task}
    (counted : custody.CountedOf start acts number action) (sound : custody.Sound)
    (kept : task.WellKept) (counting : action.engine ≠ .validation)
    (held : custody.items = ⟨number, action, .counting execution⟩ ::ₘ others)
    (found : custody.tasks number = some task) :
    CountedOf start acts
      { custody.setTask number (task.withCounts action execution) with
        items := ⟨number, action, .dividing execution⟩ ::ₘ others } number action := by
  intro initial after owed began later owes
  have has : task.has action = true := by
    rw [Task.has_eq, (sound.held held found).1]
    rfl
  have same : some (task.withCounts action execution) = some after :=
    (if_pos rfl).symm.trans later
  cases same
  have counts := counted initial task execution.counts began found
    (.inl ⟨execution, held ▸ Multiset.mem_cons_self _ _, rfl⟩)
  have paid : owed = none := by
    rcases owes with ⟨other, member, _⟩ | ⟨_, unmoved⟩
    · rcases Multiset.mem_cons.mp member with same | behind
      · cases congrArg Item.station same
      · exact (sound.apart held behind rfl).elim
    · exact unmoved
  rw [paid, Option.none_or, (Task.withCounts_sameKind _ _ _).table,
    Task.rowCounts_withCounts_self kept has counting, counts]

/-- **The recorded counts are the ones that were returned last.** -/
theorem Step.counted (step : custody.Step answers new next) (sound : custody.Sound)
    (kept : ∀ number task, custody.tasks number = some task → task.WellKept)
    (counted : custody.Counted start acts) : next.Counted start (acts ++ new) := by
  intro number action counting
  have before := counted number action counting
  have quietly : ∀ act ∈ [], Act.countsOf number action act = none := fun _ => nofun
  have taken := step
  cases step with
  | quiet => exact before.still taken sound rowCounts_same (fun _ => .rfl) quietly
  | findEnded numbers _ _ _ =>
    refine before.still taken sound rowCounts_same (fun _ => .rfl) fun act member => ?_
    obtain ⟨_, _, rfl⟩ := List.mem_map.mp member
    rfl
  | look _ _ _ => exact before.still taken sound rowCounts_same (fun _ => .rfl) quietly
  | miss _ _ => exact before.still taken sound rowCounts_same (fun _ => .rfl) quietly
  | collect head found idle =>
    refine before.still taken sound rowCounts_same (fun execution => ?_) quietly
    rw [Multiset.mem_add, Multiset.mem_coe, List.mem_map]
    refine ⟨?_, .inr⟩
    rintro (⟨_, _, same⟩ | old)
    · cases congrArg Item.station same
    · exact old
  | lose held absent => exact absurd absent (sound.not_lost held)
  | @dispatch _ act task _ held found =>
    have same := fun table => task.rowCounts_update act action .running table
    exact before.still taken sound (rowCounts_setTask found fun _ => same)
      (counting_of_exchange held rfl (.inr fun _ => ⟨nofun, nofun⟩))
      fun act member => List.mem_singleton.mp member ▸ rfl
  | @pass other act _ _ _ _ _ held found passes =>
    cases passes with
    | accept =>
      exact before.still taken sound rowCounts_same
        (counting_of_exchange held rfl (.inr fun _ => ⟨nofun, nofun⟩)) quietly
    | turnAway =>
      exact before.still taken sound rowCounts_same
        (counting_of_exchange held rfl (.inr fun _ => ⟨nofun, nofun⟩))
        fun act member => List.mem_singleton.mp member ▸ rfl
    | execute answer =>
      by_cases same : (other, act) = (number, action)
      · cases same
        exact before.execute sound held
      · exact before.still taken sound rowCounts_same
          (counting_of_exchange held rfl (.inl same))
          fun act member => List.mem_singleton.mp member ▸ countsOf_of_ne same _
  | @keepCounts other act execution task _ held found =>
    rw [List.append_nil]
    by_cases same : (other, act) = (number, action)
    · cases same
      exact before.keep sound (kept _ _ found) counting held found
    · rw [← List.append_nil acts]
      refine before.still taken sound (rowCounts_setTask found fun equal table => ?_)
        (counting_of_exchange held rfl (.inl same)) quietly
      exact Task.rowCounts_withCounts_of_ne execution
        (.inl fun equal' => same (Prod.ext equal equal'.symm))
  | keepValidation held found =>
    exact before.still taken sound
      (rowCounts_setTask found fun _ => Task.rowCounts_withValidation _ _ _)
      (counting_of_exchange held rfl (.inr fun _ => ⟨nofun, nofun⟩)) quietly
  | settle held found reported =>
    refine before.still taken sound
      (rowCounts_setTask found fun _ => Task.rowCounts_update _ _ _ _) (fun execution => ?_) quietly
    rw [held, Multiset.mem_cons]
    refine ⟨.inr, ?_⟩
    rintro (same | behind)
    · cases congrArg Item.station same
      cases reported
    · exact behind

end Custody

end TableMigration
