/-
**No table is judged too often or too early.**

* `Ledger.Step.judging` — the tables that are yet to be judged change only when one is judged, and
  when a pass begins.
* `Ledger.Weighed` — no table is judged twice in a pass, and none that is finished. While a pass goes on
  in which nothing happens, every unfinished table is yet to be judged or has a task that has not come
  to its end; and once no pass is to come, it has such a task.
* `Ledger.Step.weighed` — every step keeps this.
-/

import TableMigration.Proofs.Coverage

namespace TableMigration

/-! ### Tables that are yet to be judged -/

namespace Duty

/-- The table that a duty judges. -/
def judged? : Duty → Option String
  | .judge key => some key
  | _ => none

/-- The tables that are yet to be judged. -/
def judging (agenda : List Duty) : List String :=
  agenda.filterMap judged?

variable {duty : Duty} {rest duties : List Duty}

theorem judging_append (first second : List Duty) :
    judging (first ++ second) = judging first ++ judging second :=
  List.filterMap_append

theorem judged?_of_rank (apart : duty.rank ≠ 2) : duty.judged? = none := by
  cases duty <;> first | rfl | exact absurd rfl apart

theorem judging_of_rank (apart : ∀ duty ∈ duties, duty.rank ≠ 2) : judging duties = [] :=
  List.filterMap_eq_nil_iff.mpr fun duty member => judged?_of_rank (apart duty member)

/-- A pass judges every unfinished table. -/
theorem judging_pass (tables : Grouping) :
    judging (pass tables) = tables.unfinished.map Prod.fst := by
  have looks : ∀ numbers : List Nat, judging (numbers.map look) = [] := by
    intro numbers
    refine List.filterMap_eq_nil_iff.mpr fun duty member => ?_
    obtain ⟨_, _, rfl⟩ := List.mem_map.mp member
    rfl
  have each : ∀ entries : List (String × TableGroup),
      judging (entries.flatMap fun entry => entry.2.tasks.map look ++ [judge entry.1]) =
        entries.map Prod.fst := by
    intro entries
    induction entries with
    | nil => rfl
    | cons entry others hyp =>
      rw [List.flatMap_cons, judging_append, judging_append, looks, hyp]
      rfl
  show judging (_ ++ [test]) = _
  rw [judging_append, each]
  exact List.append_nil _

end Duty

namespace Ledger

variable {ledger next : Ledger} {answers answers' : Nat → Task → Action → Execution → Prop}
  {acts : List Act} {rest : List Duty}

/-- **What becomes of the tables that are yet to be judged.** -/
theorem Step.judging (step : ledger.Step answers acts next) :
    (Duty.judging next.agenda = Duty.judging ledger.agenda ∧ next.tables = ledger.tables) ∨
      (∃ key, ledger.agenda = .judge key :: next.agenda ∧
        (next.tables = ledger.tables ∨ ∃ group, ledger.tables.get? key = some group ∧
          next.tables = ledger.tables.put key { group with finished := true })) ∨
      ∃ rest, ledger.agenda = .beginPass :: rest ∧
        next.agenda = Duty.pass ledger.tables ++ rest ∧ next.tables = ledger.tables := by
  have stays : ∀ {duty rest} (duties : List Duty), ledger.agenda = duty :: rest →
      duty.judged? = none → Duty.judging duties = [] →
      Duty.judging (duties ++ rest) = Duty.judging ledger.agenda := by
    intro duty rest duties head none new
    rw [Duty.judging_append, new, head]
    exact (List.filterMap_cons_none none).symm
  have early : ∀ {duties : List Duty}, (∀ duty ∈ duties, duty.rank = 0) →
      Duty.judging duties = [] :=
    fun all => Duty.judging_of_rank fun duty member => by rw [all duty member]; decide
  have late : ∀ {duties : List Duty}, (∀ duty ∈ duties, duty.rank = 4) →
      Duty.judging duties = [] :=
    fun all => Duty.judging_of_rank fun duty member => by rw [all duty member]; decide
  cases step with
  | beginPass head => exact .inr (.inr ⟨_, head, rfl, rfl⟩)
  | judgeNothing head => exact .inr (.inl ⟨_, head, .inl rfl⟩)
  | @judge rest key group head found =>
    refine .inr (.inl ⟨_, head, ?_⟩)
    dsimp only
    split
    · exact .inr ⟨group, found, rfl⟩
    · exact .inl rfl
  | lookOn head => exact .inl ⟨stays [_] head rfl rfl, rfl⟩
  | collect head => exact .inl ⟨stays _ head rfl (early fun _ => Duty.rank_dispatches), rfl⟩
  | dispatch head => exact .inl ⟨stays _ head rfl (early fun _ => Duty.rank_handing), rfl⟩
  | turnAway head => exact .inl ⟨stays [_, _] head rfl rfl, rfl⟩
  | refuse head => exact .inl ⟨stays _ head rfl (early fun _ => Duty.rank_follow), rfl⟩
  | testDone head => exact .inl ⟨stays _ head rfl (late fun _ => Duty.rank_closing), rfl⟩
  | testStuck head => exact .inl ⟨stays _ head rfl (late fun _ => Duty.rank_stuck), rfl⟩
  | testOn head | wait head => exact .inl ⟨stays [_] head rfl rfl, rfl⟩
  | lookEnded head | countIn head | submit head | countOut head | unlisten head =>
    exact .inl ⟨stays [] head rfl rfl, rfl⟩
  | @absent rest duty number head about =>
    have unjudged : duty.judged? = none := by cases duty <;> first | rfl | cases about
    exact .inl ⟨stays [] head unjudged rfl, rfl⟩
  | @aside rest duty head isAside =>
    have unjudged : duty.judged? = none := by cases duty <;> first | rfl | cases isAside
    exact .inl ⟨stays [] head unjudged rfl, rfl⟩
  | _ => exact .inl ⟨rfl, rfl⟩

/-! ### Tables with a task that goes on -/

/-- Whether a group has a task that has not come to its end. -/
def Going (ledger : Ledger) (group : TableGroup) : Prop :=
  ∃ number ∈ group.tasks, ¬ ledger.custody.Ended number

theorem Going.of_same {group : TableGroup} (going : ledger.Going group)
    (same : ∀ number ∈ group.tasks, next.custody.tasks number = ledger.custody.tasks number) :
    next.Going group := by
  obtain ⟨number, among, open_⟩ := going
  refine ⟨number, among, fun ended => open_ fun task found => ended task ?_⟩
  exact (same number among).trans found

theorem going_of_not_all {group : TableGroup}
    (open_ : ¬ group.tasks.all (Task.endedIn ledger.tasks) = true) : ledger.Going group := by
  by_contra none
  refine open_ (List.all_eq_true.mpr fun number among => ended_custody.mp ?_)
  by_contra going
  exact none ⟨number, among, going⟩

/-- As long as nothing happens, no task changes. -/
theorem Step.calm (step : ledger.Step answers acts next) (balanced : ledger.Balanced)
    (calm : ledger.Quiet) (quiet : next.Quiet) : next.custody.tasks = ledger.custody.tasks := by
  have opened : ∀ {job jobs}, ledger.jobs = job ::ₘ jobs → job.isOpen = true → False := by
    intro job jobs held opened
    have closed := balanced.not_open calm held
    rw [opened] at closed
    cases closed
  cases step with
  | dispatch => exact absurd quiet.1 (Nat.succ_ne_zero _)
  | refuse head =>
    cases (balanced.quiet calm).2 _ (head ▸ List.mem_cons_self)
  | keepCounts job | keepValidation job | report job => exact (opened job rfl).elim
  | unlisten head listed =>
    funext number
    exact Task.deaf_unlisten listed ledger.tasks number
  | _ => rfl

/-! ### Weighed ledgers -/

/-- Whether every table is judged when it is to be, and not twice. -/
structure Weighed (ledger : Ledger) : Prop where
  sorted : ledger.tables.Sorted
  once : (Duty.judging ledger.agenda).Nodup
  unjudged : ∀ key ∈ Duty.judging ledger.agenda,
    ∃ group, (key, group) ∈ ledger.tables ∧ group.finished = false
  waits : .test ∈ ledger.agenda → ledger.Quiet → ∀ entry ∈ ledger.tables,
    entry.2.finished = false → entry.1 ∈ Duty.judging ledger.agenda ∨ ledger.Going entry.2
  left : (∀ duty ∈ ledger.agenda, duty.rank = 4) → ∀ entry ∈ ledger.tables,
    entry.2.finished = false → ledger.Going entry.2

/-- A table that is judged is not finished yet, and is not judged again in this pass. -/
theorem Weighed.judge (weighed : ledger.Weighed) {key : String}
    (head : ledger.agenda = .judge key :: rest) :
    key ∉ Duty.judging rest ∧ ∃ group, (key, group) ∈ ledger.tables ∧ group.finished = false ∧
      ledger.tables.get? key = some group := by
  have judging : Duty.judging ledger.agenda = key :: Duty.judging rest := by
    rw [head]
    rfl
  obtain ⟨group, member, going⟩ := weighed.unjudged key (judging ▸ List.mem_cons_self)
  exact ⟨(List.nodup_cons.mp (judging ▸ weighed.once)).1, group, member, going,
    weighed.sorted.get?_of_mem member⟩

theorem Step.sorted (step : ledger.Step answers acts next) (sorted : ledger.tables.Sorted) :
    next.tables.Sorted := by
  rcases step.judging with ⟨-, same⟩ | ⟨key, -, same | ⟨group, -, same⟩⟩ | ⟨rest, -, -, same⟩
  · exact same ▸ sorted
  · exact same ▸ sorted
  · exact same ▸ sorted.put _ _
  · exact same ▸ sorted

/-- Nothing is left to be judged when a pass begins. -/
theorem judging_of_beginPass (orderly : Duty.Orderly ledger.agenda)
    (head : ledger.agenda = .beginPass :: rest) : Duty.judging rest = [] := by
  rw [head] at orderly
  refine Duty.judging_of_rank fun duty behind two => ?_
  have above : 3 ≤ duty.rank := orderly.behind behind
  omega

theorem Step.once (step : ledger.Step answers acts next) (orderly : Duty.Orderly ledger.agenda)
    (weighed : ledger.Weighed) : (Duty.judging next.agenda).Nodup := by
  rcases step.judging with ⟨same, -⟩ | ⟨key, head, -⟩ | ⟨rest, head, after, -⟩
  · exact same ▸ weighed.once
  · have once := weighed.once
    rw [head] at once
    exact (List.nodup_cons.mp once).2
  · rw [after, Duty.judging_append, judging_of_beginPass orderly head, List.append_nil,
      Duty.judging_pass]
    have sorted : Keyed.Sorted ledger.tables.unfinished :=
      weighed.sorted.sublist List.filter_sublist
    exact sorted.nodup

theorem Step.unjudged (step : ledger.Step answers acts next)
    (orderly : Duty.Orderly ledger.agenda) (weighed : ledger.Weighed) :
    ∀ key ∈ Duty.judging next.agenda,
      ∃ group, (key, group) ∈ next.tables ∧ group.finished = false := by
  intro key member
  rcases step.judging with ⟨same, tables⟩ | ⟨judged, head, tables⟩ | ⟨rest, head, after, tables⟩
  · rw [tables]
    exact weighed.unjudged key (same ▸ member)
  · have before : key ∈ Duty.judging ledger.agenda := by
      rw [head]
      exact List.mem_cons_of_mem judged member
    obtain ⟨group, present, going⟩ := weighed.unjudged key before
    refine ⟨group, ?_, going⟩
    rcases tables with same | ⟨_, _, put⟩
    · exact same ▸ present
    · have apart : key ≠ judged := by
        rintro rfl
        exact (weighed.judge head).1 member
      rw [put]
      exact weighed.sorted.mem_put.mpr (.inr ⟨present, apart⟩)
  · rw [after, Duty.judging_append, judging_of_beginPass orderly head, List.append_nil,
      Duty.judging_pass] at member
    obtain ⟨⟨_, group⟩, open_, rfl⟩ := List.mem_map.mp member
    obtain ⟨present, going⟩ := List.mem_filter.mp open_
    exact ⟨group, tables ▸ present, by simpa using going⟩

/-- A table that was judged, and is not finished, has a task that goes on. -/
theorem Step.judged {entry : String × TableGroup} (step : ledger.Step answers acts next)
    (weighed : ledger.Weighed) (head : ledger.agenda = .judge entry.1 :: rest)
    (after : next.agenda = rest) (member : entry ∈ next.tables)
    (going : entry.2.finished = false) : ledger.Going entry.2 := by
  obtain ⟨key, group⟩ := entry
  have found := weighed.sorted.get?_of_mem (step.unfinished member going)
  have pops : ∀ {duty rest'}, ledger.agenda = duty :: rest' → duty = .judge key := by
    intro duty rest' head'
    rw [head] at head'
    exact (List.cons.inj head').1.symm
  have stays : next.agenda ≠ ledger.agenda := by
    rw [after, head]
    exact List.ne_cons_self
  cases step with
  | judge head' found' =>
    cases pops head'
    cases found.symm.trans found'
    refine going_of_not_all fun all => ?_
    rw [if_pos all] at member
    rcases weighed.sorted.mem_put.mp member with same | ⟨_, apart⟩
    · have done : group.finished = true := congrArg (fun entry => entry.2.finished) same
      rw [going] at done
      cases done
    · exact apart rfl
  | judgeNothing head' missing =>
    cases pops head'
    cases found.symm.trans missing
  | absent head' about =>
    cases pops head'
    cases about
  | aside head' isAside =>
    cases pops head'
    cases isAside
  | beginPass head' | lookEnded head' | lookOn head' | collect head' | dispatch head'
  | countIn head' | submit head' | turnAway head' | refuse head' | countOut head'
  | testDone head' | testStuck head' | testOn head' | wait head' | unlisten head' =>
    cases pops head'
  | _ => exact absurd rfl stays

theorem Step.waits (step : ledger.Step answers acts next) (balanced : ledger.Balanced)
    (weighed : ledger.Weighed) (testing : .test ∈ next.agenda) (quiet : next.Quiet) :
    ∀ entry ∈ next.tables, entry.2.finished = false →
      entry.1 ∈ Duty.judging next.agenda ∨ next.Going entry.2 := by
  intro entry member going
  have old := step.unfinished member going
  have begins : (∃ rest, next.agenda = Duty.pass ledger.tables ++ rest) →
      entry.1 ∈ Duty.judging next.agenda := by
    rintro ⟨rest, after⟩
    rw [after, Duty.judging_append, Duty.judging_pass]
    refine List.mem_append_left _ (List.mem_map_of_mem (List.mem_filter.mpr ⟨old, ?_⟩))
    rw [going]
    rfl
  rcases step.quiet balanced quiet with calm | new
  · rcases step.testing testing with tested | new
    · have same := step.calm balanced calm quiet
      have still : ledger.Going entry.2 → next.Going entry.2 :=
        fun going => going.of_same fun number _ => congrFun same number
      rcases weighed.waits tested calm entry old going with planned | going'
      · rcases step.judging with ⟨same, -⟩ | ⟨key, head, -⟩ | ⟨rest, -, after, -⟩
        · exact .inl (same ▸ planned)
        · by_cases mine : entry.1 = key
          · subst mine
            exact .inr (still (step.judged weighed head rfl member going))
          · rw [head] at planned
            exact .inl ((List.mem_cons.mp planned).resolve_left mine)
        · exact .inl (begins ⟨rest, after⟩)
      · exact .inr (still going')
    · exact .inl (begins new)
  · exact .inl (begins new)

theorem Step.leaves (step : ledger.Step answers acts next) (orderly : Duty.Orderly ledger.agenda)
    (covered : ledger.Covered) (goes : ledger.custody.Step answers' acts next.custody)
    (weighed : ledger.Weighed) (closing : ∀ duty ∈ next.agenda, duty.rank = 4) :
    ∀ entry ∈ next.tables, entry.2.finished = false → next.Going entry.2 := by
  intro entry member going
  have old := step.unfinished member going
  rcases step.closes covered.led closing with all | ⟨rest, head, same, empty | quiet⟩
  · -- a task that has not come to its end is left, so that nothing is on its way for it
    obtain ⟨number, among, open_⟩ := weighed.left all entry old going
    obtain ⟨_, _, unready⟩ := (covered.left all number ⟨entry, old, among⟩).resolve_left open_
    refine ⟨number, among, fun ended => open_ fun task found => ended task ?_⟩
    exact (goes.unmoved unready).trans found
  · have open_ : entry ∈ ledger.tables.unfinished :=
      List.mem_filter.mpr ⟨old, by rw [going]; rfl⟩
    rw [empty] at open_
    cases open_
  · have judging : Duty.judging ledger.agenda = [] := by
      rw [head] at orderly ⊢
      refine Duty.judging_of_rank fun duty planned two => ?_
      rcases List.mem_cons.mp planned with rfl | behind
      · cases two
      · have above : 3 ≤ duty.rank := orderly.behind behind
        omega
    rcases weighed.waits (head ▸ List.mem_cons_self) quiet entry old going with planned | going
    · rw [judging] at planned
      cases planned
    · refine going.of_same fun number _ => ?_
      show (next.tasks[number]?).map Task.deaf = _
      rw [same]
      rfl

/-- **Every step keeps a ledger weighed.** -/
theorem Step.weighed (step : ledger.Step answers acts next) (orderly : Duty.Orderly ledger.agenda)
    (balanced : ledger.Balanced) (covered : ledger.Covered)
    (goes : ledger.custody.Step answers' acts next.custody) (weighed : ledger.Weighed) :
    next.Weighed where
  sorted := step.sorted weighed.sorted
  once := step.once orderly weighed
  unjudged := step.unjudged orderly weighed
  waits := step.waits balanced weighed
  left := step.leaves orderly covered goes weighed

end Ledger

end TableMigration
